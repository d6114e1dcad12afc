import HermesRuntime.Classification
import HermesRuntime.PersistedEvents

/-!
# What comes before a completed run

An execution asks for `completed` in one place, behind the policy, the claim, the dispatch, the
heartbeats, the events and the gates, and asks for nothing before it.

* `completed_steps` — every step before the finish with `completed`.
* `completed_only_through_gates` — what these steps say.
-/

namespace HermesRuntime

open Effects Prog Proc KanbanDispatcherAdapter

/-! ## Where a trace finishes as completed -/

/-- A list is cut in one way at its only element with `P`. -/
theorem append_cons_unique {α : Type} {P : α → Prop} {x y : α} {xs ys xs' ys' : List α}
    (hx : P x) (hxs' : ∀ z ∈ xs', ¬ P z) (hys' : ∀ z ∈ ys', ¬ P z)
    (h : xs ++ x :: ys = xs' ++ y :: ys') : xs = xs' ∧ x = y ∧ ys = ys' := by
  rcases List.append_eq_append_iff.1 h with ⟨more, rfl, hmore⟩ | ⟨more, rfl, hmore⟩
  · cases more with
    | nil =>
        injection hmore with hhead htail
        exact ⟨(List.append_nil _).symm, hhead, htail⟩
    | cons z more =>
        injection hmore with hhead htail
        exact absurd (hhead ▸ hx) (hxs' z (by simp))
  · cases more with
    | nil =>
        injection hmore with hhead htail
        exact ⟨List.append_nil _, hhead.symm, htail.symm⟩
    | cons z more =>
        injection hmore with hhead htail
        exact absurd hx (hys' x (by rw [htail]; simp))

/-- The event asks for `completed`. -/
def FinishesCompleted : CallEvent → Prop
  | ⟨.finish _ s _, _⟩ => s = "completed"
  | _ => False

theorem completes_of_finishesCompleted {ev : CallEvent} (h : FinishesCompleted ev) :
    Completes ev := by
  obtain ⟨call, r⟩ := ev
  cases call <;> first | exact h | exact h.elim

theorem not_finishesCompleted_movedTo {m : Bool} {i s : String} :
    ∀ ev ∈ movedTo m i s, ¬ FinishesCompleted ev := by
  intro ev hev
  cases m
  · cases hev
  · rw [List.mem_singleton.1 hev]
    exact id

/-- **The steps before a finish with `completed`**: the claim, those up to the gates, and the move
to review. No other finish with `completed` follows. -/
theorem completed_steps {rt : AgentRuntime} {m : Bool} {issue : Issue} {pre post : List CallEvent}
    {q : Prog Call Call.Resp (Except Exc ExecutionContext)} {c : ExecutionContext}
    {fields : Mapping String} {r : Except Exc Unit}
    (h : Reach (rt.execute m issue).run (pre ++ ⟨.finish c "completed" fields, r⟩ :: post) q) :
    IsContextOf issue c ∧ (∀ ev ∈ post, ¬ FinishesCompleted ev) ∧
      ∃ drawn work result, pre = claimSteps rt c drawn ++ work ++
          movedTo m issue.identifier "In Review" ∧
        Returns (dispatchIssue m issue c).run work (.ok result) ∧ fields = result.fields := by
  obtain ⟨later, o, hreturns⟩ := h.extend
  rw [List.append_assoc, List.cons_append] at hreturns
  generalize hall : pre ++ ⟨.finish c "completed" fields, r⟩ :: (post ++ later) = tr at hreturns
  have hmem : (⟨.finish c "completed" fields, r⟩ : CallEvent) ∈ tr := by
    rw [← hall]
    simp
  rcases execute_returns hreturns with ⟨hrefused, -⟩ | ⟨c', drawn, body, rest, rfl, hcontext, hends⟩
  · exact (hrefused _ hmem).elim
  obtain ⟨⟨o', hbody⟩, hrest⟩ := blocks_of_ends hends
  have hclaim : ∀ ev ∈ claimSteps rt c' drawn, ¬ FinishesCompleted ev := by
    intro ev hev
    simp only [claimSteps, List.mem_cons, List.not_mem_nil, or_false] at hev
    rcases hev with rfl | rfl | rfl <;> exact id
  have hrest' : ∀ ev ∈ rest, ¬ FinishesCompleted ev := by
    intro ev hev hfin
    rcases hrest with rfl | ⟨e, hfail⟩
    · cases hev
    · exact failTrace_not_completes hfail ev hev (completes_of_finishesCompleted hfin)
  have hwork : ∀ {work : List CallEvent} {o : Except Exc ExecutionResult},
      Returns (dispatchIssue m issue c').run work o → ∀ ev ∈ work, ¬ FinishesCompleted ev :=
    fun hdisp ev hev hfin => not_completes_of_work (dispatchIssue_work hdisp ev hev)
      (completes_of_finishesCompleted hfin)
  -- Only a body that got to its own finish has one with `completed`.
  have hbodymem : (⟨.finish c "completed" fields, r⟩ : CallEvent) ∈ body := by
    rcases List.mem_append.1 hmem with hmem | hmem
    · exact (List.mem_append.1 hmem).resolve_left fun hmem => hclaim _ hmem rfl
    · exact absurd rfl (hrest' _ hmem)
  cases hbody with
  | stopped e hdisp => exact absurd rfl (hwork hdisp _ hbodymem)
  | reviewFailed result e hm hdisp =>
      rcases List.mem_append.1 hbodymem with hmem | hmem
      · exact absurd rfl (hwork hdisp _ hmem)
      · cases List.mem_singleton.1 hmem
  | @finished work result r' hdisp =>
      have hcut : pre ++ ⟨.finish c "completed" fields, r⟩ :: (post ++ later) =
          (claimSteps rt c' drawn ++ work ++ movedTo m issue.identifier "In Review") ++
            ⟨.finish c' "completed" result.fields, r'⟩ :: rest := by
        rw [hall]
        simp
      have hbefore : ∀ ev ∈ claimSteps rt c' drawn ++ work ++
          movedTo m issue.identifier "In Review", ¬ FinishesCompleted ev := by
        intro ev hev
        rcases List.mem_append.1 hev with hev | hev
        · exact (List.mem_append.1 hev).elim (hclaim ev) (hwork hdisp ev)
        · exact not_finishesCompleted_movedTo ev hev
      have hthis : FinishesCompleted ⟨.finish c "completed" fields, r⟩ := rfl
      obtain ⟨rfl, heq, hpost⟩ := append_cons_unique hthis hbefore hrest' hcut
      cases heq
      exact ⟨hcontext, fun ev hev => hrest' ev (hpost ▸ List.mem_append_left _ hev), drawn, work,
        result, rfl, hdisp, rfl⟩

/-! ## What they say -/

theorem heartbeatErrors_eq_nil_iff {outcomes : List (Except Exc Bool)} :
    heartbeatErrors outcomes = [] ↔ ∀ outcome ∈ outcomes, outcome = .ok true := by
  induction outcomes with
  | nil => exact iff_of_true rfl (by simp)
  | cons outcome outcomes ih =>
      rw [List.forall_mem_cons]
      match outcome with
      | .ok true => exact ih.trans (iff_and_self.2 fun _ => rfl)
      | .ok false => exact iff_of_false nofun fun h => nomatch h.1
      | .error e => exact iff_of_false nofun fun h => nomatch h.1

theorem gatesPassed_iff {agent : String} {result : ExecutionResult} :
    gatesPassed agent result = true ↔ (agent ∈ gatedAgents →
      result.testsStatus = some "passed" ∧ result.reviewStatus = some "approved") := by
  unfold gatesPassed
  by_cases hgated : agent ∈ gatedAgents <;> simp [hgated]

theorem postEvents_answered {c : ExecutionContext} {events : List (String × Mapping PyVal)}
    {posts : List CallEvent} (h : Returns (postEvents c events).run posts (.ok ())) :
    posts = events.map fun event => ⟨.event c event.1 event.2, .ok ()⟩ := by
  induction events generalizing posts with
  | nil => exact (returns_pure.1 h).1
  | cons event events ih =>
      obtain ⟨_, rest, _, rfl, hevent, hrest⟩ := returns_run_bind_ok.1 h
      rw [returns_event.1 hevent, ih hrest]
      rfl

/-- The events of a result are stored once all of them are accepted. -/
theorem persistEvents_answered {c : ExecutionContext} {events : List (String × RawPayload)}
    {posts : List CallEvent} (h : Returns (persistEvents c events).run posts (.ok ())) :
    ∃ normalized, normalizeEvents [] events = .ok normalized ∧
      posts = normalized.map fun event => ⟨.event c event.1 event.2, .ok ()⟩ := by
  unfold persistEvents at h
  obtain ⟨_, posts, normalized, rfl, hsettle, hposts⟩ := returns_run_bind_ok.1 h
  obtain ⟨rfl, hnorm⟩ := returns_settle.1 hsettle
  exact ⟨normalized, hnorm.symm, postEvents_answered hposts⟩

/-- **A run is completed only through the gates.** Before its finish with `completed` an execution
has, in this order, claimed an issue it may run, stored `agent.dispatched`, dispatched, joined
heartbeats that all held the lock, and stored all events of a result that passes the gates; it
has asked for no other finish, and asks for none with `completed` afterwards. -/
theorem completed_only_through_gates {rt : AgentRuntime} {m : Bool} {issue : Issue}
    {pre post : List CallEvent} {q : Prog Call Call.Resp (Except Exc ExecutionContext)}
    {c : ExecutionContext} {fields : Mapping String} {r : Except Exc Unit}
    (h : Reach (rt.execute m issue).run (pre ++ ⟨.finish c "completed" fields, r⟩ :: post) q) :
    IsContextOf issue c ∧ c.executionMode = "auto" ∧ c.risk ≠ "critical" ∧
      c.environment ≠ "production" ∧
      (∃ (drawn : Nat × Fin (2 ^ 80)) (outcomes : List (Except Exc Bool))
          (result : ExecutionResult) (normalized : List (String × Mapping PyVal)),
        pre = claimSteps rt c drawn ++ (movedTo m issue.identifier "In Progress" ++
            [⟨.event c "agent.dispatched" ∅, .ok ()⟩, ⟨.dispatch c, .ok result⟩,
              ⟨.joinHeartbeat c, outcomes⟩] ++
            normalized.map fun event => ⟨.event c event.1 event.2, .ok ()⟩) ++
          movedTo m issue.identifier "In Review" ∧
        fields = result.fields ∧
        (∀ outcome ∈ outcomes, outcome = .ok true) ∧
        normalizeEvents [] result.events = .ok normalized ∧
        (∀ event ∈ result.events, ValidEvent event) ∧
        (c.agent ∈ ["dev-backend", "dev-frontend", "devops"] →
          result.testsStatus = some "passed" ∧ result.reviewStatus = some "approved")) ∧
      finishes pre = [] ∧ ∀ answer, ("completed", answer) ∉ finishes post := by
  obtain ⟨hcontext, hpost, drawn, work, result, rfl, hdisp, rfl⟩ := completed_steps h
  obtain ⟨-, -, -, -, -, -, hrisk, hmode, henv⟩ := classifyIssue_eq_ok_iff.1 hcontext.1
  have hquiet := finishes_work (dispatchIssue_work hdisp)
  obtain ⟨outcomes, posts, rfl, hposts, hbeats, hgates⟩ := dispatchIssue_ok hdisp
  obtain ⟨normalized, hnorm, rfl⟩ := persistEvents_answered hposts
  refine ⟨hcontext, hmode, ?_, ?_, ⟨drawn, outcomes, result, normalized, rfl, rfl,
    heartbeatErrors_eq_nil_iff.1 hbeats, hnorm, fun event hevent => ?_,
    gatesPassed_iff.1 hgates⟩, ?_, fun answer hanswer => ?_⟩
  · intro hcritical
    rw [hcritical] at hrisk
    exact absurd hrisk (by decide)
  · intro hproduction
    rw [hproduction] at henv
    exact absurd henv (by decide)
  · obtain ⟨payload, key, hval, -⟩ := normalizeEvents_ok_iff.1 ⟨normalized, hnorm⟩ event hevent
    unfold ValidEvent
    rw [hval]
    rfl
  · rw [finishes_append, finishes_append, hquiet]
    cases m <;> rfl
  · obtain ⟨⟨call, r'⟩, hev, hfin⟩ := List.mem_filterMap.1 hanswer
    cases call <;> cases hfin
    exact hpost _ hev rfl

/-- A run of the backend agent whose tests passed and whose review approved. -/
theorem completed_only_through_gates_approved :
    let issue : Issue := ⟨"LOL-1", ["agent:backend"], by simp, "Todo"⟩
    let c : ExecutionContext := { sampleContext with agent := "dev-backend" }
    ∃ pre r, Reach (AgentRuntime.ofStore.execute true issue).run
        (pre ++ [⟨.finish c "completed" (.mk [⟨"tests_status", "passed"⟩,
          ⟨"review_status", "approved"⟩]), r⟩]) (.ret (.ok c)) ∧
      IsContextOf issue c ∧ finishes pre = [] := by
  intro issue c
  let result : ExecutionResult :=
    { testsStatus := some "passed", reviewStatus := some "approved" }
  have hc : IsContextOf issue c := ⟨by decide, rfl, 0, 0, by decide⟩
  have hnorm : normalizeEvents [] result.events = .ok [] := rfl
  have hgate : gatesPassed c.agent result = true := rfl
  obtain ⟨drawn, hrun⟩ :=
    execute_of_dispatch .ofStore true hc (returns_dispatchIssue true issue hnorm hgate)
  rw [← List.append_assoc, ← List.append_assoc] at hrun
  obtain ⟨hcontext, -, -, -, -, hquiet, -⟩ := completed_only_through_gates hrun
  exact ⟨_, _, hrun, hcontext, hquiet⟩

end HermesRuntime
