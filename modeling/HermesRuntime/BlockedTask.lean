import HermesRuntime.StatusHistory

/-!
# A Kanban task that ends blocked

The adapter returns an ordinary result for a blocked task, and `execute` turns it down only
where the gates do.

* `dispatchIssue_error` — why the steps up to the gates raise.
* `eventsFit_iff` — when the events of a blocked task are accepted.
* `blocked_task_iff` — when a blocked task never completes a run.
-/

namespace HermesRuntime

open Effects Prog Proc KanbanDispatcherAdapter

/-! ## Why the `try` block raises -/

theorem gatesPassed_eq_false_iff {agent : String} {result : ExecutionResult} :
    gatesPassed agent result = false ↔ agent ∈ gatedAgents ∧
      ¬ (result.testsStatus = some "passed" ∧ result.reviewStatus = some "approved") := by
  rw [← Bool.not_eq_true]
  simp [gatesPassed]

/-- The call went through, and for the heartbeats none failed. -/
def Succeeds : CallEvent → Prop
  | ⟨.claim _ _, r⟩ | ⟨.lockRejected _ _, r⟩ | ⟨.moveStatus _ _, r⟩ | ⟨.event _ _ _, r⟩
  | ⟨.finish _ _ _, r⟩ | ⟨.recordBlocked _ _, r⟩ => r = .ok ()
  | ⟨.joinHeartbeat _, outcomes⟩ => heartbeatErrors outcomes = []
  | _ => True

theorem firstError_of_succeeds {tr : List CallEvent} (h : ∀ ev ∈ tr, Succeeds ev) :
    firstError (eventAnswers tr) = .ok () := by
  induction tr with
  | nil => rfl
  | cons ev tr ih =>
      have hrest := ih fun ev' hev' => h ev' (List.mem_cons_of_mem _ hev')
      obtain ⟨call, r⟩ := ev
      have hev := h _ List.mem_cons_self
      cases call
      case event c kind payload =>
        have hr : r = .ok () := hev
        subst hr
        exact hrest
      all_goals exact hrest

/-- Where everything before them succeeds and the events validate, only the gates raise. -/
theorem dispatchIssue_error {m : Bool} {issue : Issue} {c : ExecutionContext}
    {tr : List CallEvent} {result : ExecutionResult} {e : Exc}
    (h : Returns (dispatchIssue m issue c).run tr (.error e)) (hall : ∀ ev ∈ tr, Succeeds ev)
    (hresult : ∀ r, (⟨.dispatch c, r⟩ : CallEvent) ∈ tr → r = .ok result)
    (hvalid : ∃ normalized, normalizeEvents [] result.events = .ok normalized) :
    gatesPassed c.agent result = false ∧
      e = .executionBlocked "Required test and review gates are incomplete" := by
  unfold dispatchIssue at h
  rcases returns_run_bind.1 h with ⟨tr₁, tr₂, _, rfl, hmove, h₁⟩ | ⟨e', hmove, ho⟩
  swap
  · rcases returns_when_move hmove with ⟨-, ho⟩ | ⟨e', -, rfl, -⟩
    · cases ho
    · cases hall _ (List.mem_singleton_self _)
  rcases returns_run_bind.1 h₁ with ⟨_, tr₃, payload, rfl, hval, h₂⟩ | ⟨e', hval, ho⟩
  swap
  · obtain ⟨-, ho⟩ := returns_settle.1 hval
    cases ho
  rcases returns_run_bind.1 h₂ with ⟨_, tr₄, _, rfl, hev, h₃⟩ | ⟨e', hev, ho⟩
  swap
  · obtain rfl := returns_event.1 hev
    cases hall ⟨.event c "agent.dispatched" payload, .error e'⟩ (by simp)
  rcases returns_run_bind.1 h₃ with ⟨_, tr₅, res, rfl, hdisp, h₄⟩ | ⟨e', hdisp, ho⟩
  swap
  · obtain rfl := returns_dispatch.1 hdisp
    cases hresult (.error e') (by simp)
  obtain rfl := returns_dispatch.1 hdisp
  cases hresult (.ok res) (by simp)
  rcases returns_run_bind.1 h₄ with ⟨_, tr₆, outcomes, rfl, hjoin, h₅⟩ | ⟨e', hjoin, ho⟩
  swap
  · obtain ⟨_, -, ho⟩ := returns_perform.1 hjoin
    cases ho
  obtain ⟨_, rfl, ho⟩ := returns_perform.1 hjoin
  cases ho
  have hclean : heartbeatErrors outcomes = [] :=
    hall ⟨.joinHeartbeat c, outcomes⟩ (by simp)
  rcases returns_run_bind.1 h₅ with ⟨posts, tr₇, _, rfl, hposts, h₆⟩ | ⟨e', hposts, ho⟩
  swap
  · have hout := persistEvents_returns hposts
    obtain ⟨normalized, hnorm⟩ := hvalid
    rw [hnorm] at hout
    have hfirst : firstError (eventAnswers tr₆) = .ok () :=
      firstError_of_succeeds fun ev hev => hall ev (by simp [hev])
    rw [hfirst] at hout
    cases hout
  rw [hclean] at h₆
  rcases returns_run_bind.1 h₆ with ⟨_, tr₈, _, rfl, hhb, h₇⟩ | ⟨e', hhb, ho⟩
  swap
  · cases (returns_pure.1 hhb).2
  rcases returns_run_bind.1 h₇ with ⟨_, _, _, rfl, -, h₈⟩ | ⟨e', hgate, ho⟩
  · cases (returns_pure.1 h₈).2
  · unfold raiseUnless at hgate
    cases hpassed : gatesPassed c.agent result with
    | true =>
        rw [hpassed] at hgate
        cases (returns_pure.1 hgate).2
    | false =>
        rw [hpassed] at hgate
        have he := (returns_throw.1 hgate).2
        cases ho
        cases he
        exact ⟨rfl, rfl⟩

/-! ## The theorem -/

theorem dispatch_not_mem_movedTo {m : Bool} {i s : String} {c : ExecutionContext}
    {r : Except Exc ExecutionResult} : (⟨.dispatch c, r⟩ : CallEvent) ∉ movedTo m i s := by
  intro h
  cases m
  · cases h
  · cases List.mem_singleton.1 h

/-- The trace's dispatch is answered by the adapter. -/
def DispatchedBy (a : KanbanDispatcherAdapter) (fuel : Nat) (tr : List CallEvent) : Prop :=
  ∀ c r, (⟨.dispatch c, r⟩ : CallEvent) ∈ tr → a.call fuel c = some r

/-- After an `ExecutionBlocked` the `except` block finishes the run as blocked. -/
theorem failTrace_blocked {m : Bool} {i message : String} {c : ExecutionContext}
    {tr : List CallEvent} {o : Except Exc ExecutionContext}
    (h : FailTrace m i c (.executionBlocked message) tr o) (hall : ∀ ev ∈ tr, Succeeds ev) :
    finishes tr = [("blocked", .ok ())] := by
  cases h with
  | moveFailed e hm hclean hblocked =>
      cases hall ⟨.moveStatus i "Blocked", .error e⟩ (by simp)
  | @blocked clean r e hclean hblocked =>
      have hr : r = .ok () := hall _ (List.mem_append_right _ (List.mem_singleton_self _))
      simp [finishes_cleanup hclean, hr]
  | failed r e hclean hblocked => cases hblocked

/-- What the adapter returns for a blocked task. -/
theorem call_of_blocked {c : ExecutionContext} {a : KanbanDispatcherAdapter} {fuel reads : Nat}
    {initial last : KanbanTaskSnapshot} {events : List (String × RawPayload)}
    (hfirst : a.first c = .ok (initial, reads))
    (hpoll : a.poll fuel c initial reads = some (.terminal, last, events))
    (hblocked : last.status = "blocked") :
    a.call fuel c = some (.ok (.ofFields last.fields
      (events ++ [kanbanEvent "kanban.blocked" c last ∅]))) := by
  unfold KanbanDispatcherAdapter.call
  rw [hfirst]
  simp only [hpoll, Option.map_some]
  simp [conclude, hblocked, terminalBlockedStatuses]

/-- A result that passes the gates completes the run where everything succeeds. -/
theorem completes_of_gates (rt : AgentRuntime) (m : Bool) {issue : Issue} {c : ExecutionContext}
    {a : KanbanDispatcherAdapter} {fuel : Nat} {result : ExecutionResult}
    {normalized : List (String × Mapping PyVal)} (hc : IsContextOf issue c)
    (hcall : a.call fuel c = some (.ok result))
    (hn : normalizeEvents [] result.events = .ok normalized)
    (hpassed : gatesPassed c.agent result = true) :
    ∃ tr o, Returns (rt.execute m issue).run tr o ∧ ⟨.claim c rt.ttlSeconds, .ok ()⟩ ∈ tr ∧
      DispatchedBy a fuel tr ∧ ∃ ev ∈ tr, Completes ev := by
  have hdisp := returns_dispatchIssue m issue hn hpassed
  obtain ⟨drawn, hrun⟩ := execute_of_dispatch rt m hc hdisp
  refine ⟨_, _, hrun, by simp [claimSteps], ?_,
    ⟨.finish c "completed" result.fields, .ok ()⟩, by simp, rfl⟩
  intro c' r hmem
  simp only [claimSteps, List.mem_append, List.mem_cons, List.mem_map, List.not_mem_nil,
    or_false] at hmem
  rcases hmem with (h | h | h) | ((h | h | h | h) | ⟨_, -, h⟩) | h | h
  case inr.inl.inl.inr.inr.inl =>
    cases h
    exact hcall
  all_goals first | cases h | exact absurd h dispatch_not_mem_movedTo

/-- The events reported for a blocked task are accepted exactly when each is valid. -/
theorem normalize_of_blocked {c : ExecutionContext} {a : KanbanDispatcherAdapter}
    {fuel reads : Nat} {initial last : KanbanTaskSnapshot} {events : List (String × RawPayload)}
    (hfirst : a.first c = .ok (initial, reads))
    (hpoll : a.poll fuel c initial reads = some (.terminal, last, events)) :
    (∃ normalized, normalizeEvents []
        (events ++ [kanbanEvent "kanban.blocked" c last ∅]) = .ok normalized) ↔
      ∀ event ∈ events ++ [kanbanEvent "kanban.blocked" c last ∅], ValidEvent event := by
  obtain ⟨-, -, changed, -, hevents⟩ := pollTask_events (supplies_first hfirst) hpoll
  have hraw : events ++ [kanbanEvent "kanban.blocked" c last ∅] =
      ((TaskEvent.plainly "kanban.dispatched" initial ::
        changed.map (TaskEvent.plainly "kanban.status_changed")) ++
          [TaskEvent.plainly "kanban.blocked" last]).map (·.raw c) := by
    rw [hevents, List.map_append, List.map_cons, List.map_map]
    rfl
  rw [hraw, taskEvents_normalize_iff, List.forall_mem_map]

/-- The snapshots the adapter reports: the first, those with another status than the one before,
and the last. -/
def KanbanDispatcherAdapter.reported (a : KanbanDispatcherAdapter) (fuel : Nat)
    (initial last : KanbanTaskSnapshot) (reads : Nat) : List KanbanTaskSnapshot :=
  initial :: (changes initial.status (a.snapshots fuel initial reads).tail ++ [last])

/-- The events of a blocked task fit their types: the texts of the snapshots they report are
acceptable, and the first has no run outcome. -/
def EventsFit (c : ExecutionContext) (a : KanbanDispatcherAdapter) (fuel : Nat)
    (initial last : KanbanTaskSnapshot) (reads : Nat) : Prop :=
  truthy initial.outcome = none ∧ ∀ s ∈ a.reported fuel initial last reads, TextsOk c s

/-- **When the events of a blocked task are accepted.** -/
theorem eventsFit_iff {c : ExecutionContext} {a : KanbanDispatcherAdapter} {fuel reads : Nat}
    {initial last : KanbanTaskSnapshot} {events : List (String × RawPayload)}
    (hpoll : a.poll fuel c initial reads = some (.terminal, last, events)) :
    (∀ event ∈ events ++ [kanbanEvent "kanban.blocked" c last ∅], ValidEvent event) ↔
      EventsFit c a fuel initial last reads := by
  obtain ⟨rest, hhistory, rfl⟩ := pollTask_history hpoll
  have htail : (a.snapshots fuel initial reads).tail = rest := congrArg List.tail hhistory
  have hdispatched : ValidEvent (kanbanEvent "kanban.dispatched" c initial ∅) ↔
      TextsOk c initial ∧ truthy initial.outcome = none :=
    validEvent_kanbanEvent.trans ((accepted_plain_iff rfl (by decide) (by decide)
      (by decide)).trans (and_congr_right' ⟨fun h => h (by decide), fun h _ => h⟩))
  have hchanged : ∀ s, ValidEvent (kanbanEvent "kanban.status_changed" c s ∅) ↔ TextsOk c s :=
    fun s => validEvent_kanbanEvent.trans ((accepted_plain_iff rfl (by decide) (by decide)
      (by decide)).trans (and_iff_left fun hno => absurd (by decide) hno))
  have hblocked : ValidEvent (kanbanEvent "kanban.blocked" c last ∅) ↔ TextsOk c last :=
    validEvent_kanbanEvent.trans ((accepted_plain_iff rfl (by decide) (by decide)
      (by decide)).trans (and_iff_left fun hno => absurd (by decide) hno))
  unfold EventsFit KanbanDispatcherAdapter.reported
  rw [htail]
  simp only [List.forall_mem_append, List.forall_mem_cons, List.forall_mem_map,
    List.not_mem_nil, false_implies, implies_true, and_true, hdispatched, hchanged, hblocked]
  constructor
  · rintro ⟨⟨⟨hok, hnone⟩, hrest⟩, hlast⟩
    exact ⟨hnone, hok, hrest, hlast⟩
  · rintro ⟨hnone, hok, hrest, hlast⟩
    exact ⟨⟨⟨hok, hnone⟩, hrest⟩, hlast⟩

/-- A result that fails the gates, or has an event that is turned down, is not passed on. -/
theorem dispatchIssue_not_ok {m : Bool} {issue : Issue} {c : ExecutionContext}
    {tr : List CallEvent} {result res : ExecutionResult}
    (hcond : gatesPassed c.agent result = false ∨
      ¬ ∃ normalized, normalizeEvents [] result.events = .ok normalized)
    (hresult : ∀ r, (⟨.dispatch c, r⟩ : CallEvent) ∈ tr → r = .ok result) :
    ¬ Returns (dispatchIssue m issue c).run tr (.ok res) := by
  intro hdisp
  obtain ⟨outcomes, posts, rfl, hposts, -, hpassed⟩ := dispatchIssue_ok hdisp
  cases hresult (.ok res) (by simp)
  rcases hcond with hgate | hinvalid
  · rw [hgate] at hpassed
    cases hpassed
  · have hout := persistEvents_returns hposts
    cases hn : normalizeEvents [] result.events with
    | error e =>
        rw [hn] at hout
        cases hout
    | ok normalized => exact hinvalid ⟨normalized, hn⟩

/-- An execution that cannot get past the gates raises before them. -/
theorem stopped_of_ends {m : Bool} {issue : Issue} {c : ExecutionContext}
    {body rest : List CallEvent} {o : Except Exc ExecutionContext}
    (hends : (∃ c', o = .ok c' ∧ rest = [] ∧ BodyTrace m issue c body o) ∨
      ∃ e, BodyTrace m issue c body (.error e) ∧ FailTrace m issue.identifier c e rest o)
    (hstops : ∀ work res, (∀ ev ∈ work, ev ∈ body) →
      ¬ Returns (dispatchIssue m issue c).run work (.ok res)) :
    ∃ e, Returns (dispatchIssue m issue c).run body (.error e) ∧
      FailTrace m issue.identifier c e rest o := by
  rcases hends with ⟨c', rfl, rfl, hb⟩ | ⟨e, hb, hf⟩
  · generalize ho : (Except.ok c' : Except Exc ExecutionContext) = o at hb
    cases hb with
    | stopped | reviewFailed => cases ho
    | finished res r hdisp =>
        refine (hstops _ res (fun _ hev => ?_) hdisp).elim
        exact List.mem_append_left _ (List.mem_append_left _ hev)
  · generalize ho : (Except.error e : Except Exc ExecutionContext) = o' at hb
    cases hb with
    | stopped e' hdisp =>
        cases ho
        exact ⟨e, hdisp, hf⟩
    | reviewFailed res e' hm hdisp =>
        exact (hstops _ res (fun _ hev => List.mem_append_left _ hev) hdisp).elim
    | finished res r hdisp =>
        refine (hstops _ res (fun _ hev => ?_) hdisp).elim
        exact List.mem_append_left _ (List.mem_append_left _ hev)

/-- **A blocked task never completes a run** exactly when its agent is gated and its merged
statuses fall short of the gates, or the events of its snapshots do not fit. -/
theorem blocked_task_iff {rt : AgentRuntime} {m : Bool} {issue : Issue} {c : ExecutionContext}
    {a : KanbanDispatcherAdapter} {fuel reads : Nat} {initial last : KanbanTaskSnapshot}
    {events : List (String × RawPayload)} (hc : IsContextOf issue c)
    (hfirst : a.first c = .ok (initial, reads))
    (hpoll : a.poll fuel c initial reads = some (.terminal, last, events))
    (hblocked : last.status = "blocked") :
    (∀ tr o, Returns (rt.execute m issue).run tr o → ⟨.claim c rt.ttlSeconds, .ok ()⟩ ∈ tr →
      DispatchedBy a fuel tr → (∀ ev ∈ tr, ¬ Completes ev) ∧
        ((∀ ev ∈ tr, Succeeds ev) → EventsFit c a fuel initial last reads →
          finishes tr = [("blocked", .ok ())])) ↔
      (c.agent ∈ gatedAgents ∧ ¬ (last.fields.lookup "tests_status" = some "passed" ∧
        last.fields.lookup "review_status" = some "approved")) ∨
      ¬ EventsFit c a fuel initial last reads := by
  have hcall := call_of_blocked hfirst hpoll hblocked
  generalize hreported : events ++ [kanbanEvent "kanban.blocked" c last ∅] = reported at hcall
  generalize hresult : ExecutionResult.ofFields last.fields reported = result at hcall
  have hgates : gatesPassed c.agent result = false ↔ c.agent ∈ gatedAgents ∧
      ¬ (last.fields.lookup "tests_status" = some "passed" ∧
        last.fields.lookup "review_status" = some "approved") := by
    rw [gatesPassed_eq_false_iff, ← hresult]
    exact Iff.rfl
  have hnorm : (∃ normalized, normalizeEvents [] result.events = .ok normalized) ↔
      EventsFit c a fuel initial last reads := by
    rw [← hresult, ← hreported]
    exact (normalize_of_blocked hfirst hpoll).trans (eventsFit_iff hpoll)
  rw [← hgates]
  constructor
  · intro h
    by_contra hno
    push Not at hno
    obtain ⟨hpassed, hvalid⟩ := hno
    obtain ⟨normalized, hn⟩ := hnorm.2 hvalid
    obtain ⟨tr, o, hrun, hclaim, hby, ev, hev, hcompletes⟩ :=
      completes_of_gates rt m hc hcall hn (by simpa using hpassed)
    exact (h tr o hrun hclaim hby).1 ev hev hcompletes
  · intro hcond tr o hrun hclaim hby
    rcases execute_returns hrun with ⟨hrefused, -⟩ | ⟨c₁, drawn, body, rest, rfl, -, hends⟩
    · exact (hrefused _ hclaim).elim
    have hclaim₁ : (⟨.claim c₁ rt.ttlSeconds, .ok ()⟩ : CallEvent) ∈
        claimSteps rt c₁ drawn ++ body ++ rest := by simp [claimSteps]
    obtain rfl : c = c₁ := claim_unique hrun hclaim₁ hclaim
    have hby' : ∀ r, (⟨.dispatch c, r⟩ : CallEvent) ∈ body → r = .ok result := by
      intro r hmem
      have heq := hby c r (by simp [hmem])
      rw [hcall] at heq
      exact (Option.some.inj heq).symm
    -- The gates turn the result down, or the events do, so the `try` block stops before them.
    have hcond' : gatesPassed c.agent result = false ∨
        ¬ ∃ normalized, normalizeEvents [] result.events = .ok normalized := by
      exact hcond.imp_right fun hinvalid hn => hinvalid (hnorm.1 hn)
    obtain ⟨e, hdisp, hf⟩ := stopped_of_ends hends fun work res hsub =>
      dispatchIssue_not_ok hcond' fun r hr => hby' r (hsub _ hr)
    have hwork := dispatchIssue_work hdisp
    constructor
    · intro ev hev
      rcases List.mem_append.1 hev with hev | hev
      · rcases List.mem_append.1 hev with hev | hev
        · simp only [claimSteps, List.mem_cons, List.not_mem_nil, or_false] at hev
          rcases hev with rfl | rfl | rfl <;> exact id
        · exact not_completes_of_work (hwork ev hev)
      · exact failTrace_not_completes hf ev hev
    · intro hall hvalid
      obtain ⟨-, rfl⟩ := dispatchIssue_error hdisp (fun ev hev => hall ev (by simp [hev])) hby'
        (hnorm.2 hvalid)
      have hrest := failTrace_blocked hf fun ev hev => hall ev (by simp [hev])
      simp [finishes_work hwork, hrest]

/-! ## Two blocked tasks -/

/-- A task that is blocked at once. -/
def blockedTask : KanbanTaskSnapshot := { taskId := "t_1", status := "blocked" }

theorem blockedTask_poll (c : ExecutionContext) :
    (constantAdapter blockedTask).poll 1 c blockedTask 0 =
      some (.terminal, blockedTask, [kanbanEvent "kanban.dispatched" c blockedTask ∅]) :=
  poll_of_terminal (by decide)

/-- A blocked task completes the run of the QA agent, which no gate stops. -/
theorem blocked_task_completes :
    ¬ ∀ (rt : AgentRuntime) (m : Bool) (issue : Issue) (c : ExecutionContext)
      (a : KanbanDispatcherAdapter) (fuel reads : Nat) (initial last : KanbanTaskSnapshot)
      (events : List (String × RawPayload)), IsContextOf issue c →
      a.first c = .ok (initial, reads) →
      a.poll fuel c initial reads = some (.terminal, last, events) → last.status = "blocked" →
      ∀ tr o, Returns (rt.execute m issue).run tr o → ⟨.claim c rt.ttlSeconds, .ok ()⟩ ∈ tr →
        DispatchedBy a fuel tr → ∀ ev ∈ tr, ¬ Completes ev := by
  intro h
  have hc : IsContextOf qaIssue sampleContext :=
    ⟨by decide, rfl, 0, 0, by decide⟩
  have hpoll := blockedTask_poll sampleContext
  let events : List TaskEvent :=
    [.plainly "kanban.dispatched" blockedTask, .plainly "kanban.blocked" blockedTask]
  have hvalid : ∀ e ∈ events, ValidEvent (e.raw sampleContext) := by decide
  obtain ⟨normalized, hn⟩ := taskEvents_normalize_iff.2 hvalid
  obtain ⟨tr, o, hrun, hclaim, hby, ev, hev, hcompletes⟩ :=
    completes_of_gates .ofStore true hc (call_of_blocked rfl hpoll rfl) hn rfl
  exact h .ofStore true _ _ _ 1 0 _ _ _ hc rfl hpoll rfl tr o hrun hclaim hby ev hev hcompletes

/-- A blocked task of the backend agent, which the gates stop. -/
theorem blocked_task_iff_gated :
    let c : ExecutionContext := { sampleContext with agent := "dev-backend" }
    (∀ tr o, Returns (AgentRuntime.ofStore.execute true
        ⟨"LOL-1", ["agent:backend"], by simp, "Todo"⟩).run tr o →
      ⟨.claim c 600, .ok ()⟩ ∈ tr → DispatchedBy (constantAdapter blockedTask) 1 tr →
        (∀ ev ∈ tr, ¬ Completes ev) ∧ ((∀ ev ∈ tr, Succeeds ev) →
          EventsFit c (constantAdapter blockedTask) 1 blockedTask blockedTask 0 →
            finishes tr = [("blocked", .ok ())])) ↔
      (c.agent ∈ gatedAgents ∧ ¬ (blockedTask.fields.lookup "tests_status" = some "passed" ∧
        blockedTask.fields.lookup "review_status" = some "approved")) ∨
      ¬ EventsFit c (constantAdapter blockedTask) 1 blockedTask blockedTask 0 := by
  intro c
  have hc : IsContextOf ⟨"LOL-1", ["agent:backend"], by simp, "Todo"⟩ c :=
    ⟨by decide, rfl, 0, 0, by decide⟩
  exact blocked_task_iff hc rfl (blockedTask_poll c) rfl

end HermesRuntime
