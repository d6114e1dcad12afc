import HermesRuntime.Runtime

/-!
# The runtime: traces of `execute`

What a complete trace of `execute` looks like, whatever its calls are answered: the steps up to
the gates make no finish and no move past `In Progress`, and either block that follows ends in
the one finish it makes.

* `dispatchIssue_only`, `dispatchIssue_ok` — the steps up to the gates.
* `completeIssue_returns`, `failIssue_returns` — the ends of the `try` and the `except` block.
* `execute_claims`, `execute_returns` — whole executions, block by block.
-/

namespace HermesRuntime

open Effects Prog Proc

/-! ## Single calls -/

theorem returns_claim {c : ExecutionContext} {ttl : Int} {tr : List CallEvent}
    {o : Except Exc Unit} : Returns (claim c ttl).run tr o ↔ tr = [⟨.claim c ttl, o⟩] :=
  returns_call_ret

theorem returns_moveStatus {i s : String} {tr : List CallEvent} {o : Except Exc Unit} :
    Returns (moveStatus i s).run tr o ↔ tr = [⟨.moveStatus i s, o⟩] :=
  returns_call_ret

theorem returns_event {c : ExecutionContext} {kind : String} {payload : Mapping PyVal}
    {tr : List CallEvent} {o : Except Exc Unit} :
    Returns (event c kind payload).run tr o ↔ tr = [⟨.event c kind payload, o⟩] :=
  returns_call_ret

theorem returns_dispatch {c : ExecutionContext} {tr : List CallEvent}
    {o : Except Exc ExecutionResult} : Returns (dispatch c).run tr o ↔ tr = [⟨.dispatch c, o⟩] :=
  returns_call_ret

theorem returns_finish {c : ExecutionContext} {s : String} {fields : Mapping String}
    {tr : List CallEvent} {o : Except Exc Unit} :
    Returns (finish c s fields).run tr o ↔ tr = [⟨.finish c s fields, o⟩] :=
  returns_call_ret

theorem returns_perform {c : Call} {tr : List CallEvent} {o : Except Exc c.Resp} :
    Returns (perform c).run tr o ↔ ∃ r, tr = [⟨c, r⟩] ∧ o = .ok r := by
  show Returns (.call c .ret >>= fun r => Prog.ret (Except.ok r)) tr o ↔ _
  simp

@[simp] theorem returns_settle {α : Type} {x : Except Exc α} {tr : List CallEvent}
    {o : Except Exc α} : Returns (settle x).run tr o ↔ tr = [] ∧ o = x := returns_ret

theorem returns_raiseUnless_ok {check : Bool} {e : Exc} {tr : List CallEvent} :
    Returns (raiseUnless check e).run tr (.ok ()) ↔ tr = [] ∧ check = true := by
  unfold raiseUnless
  cases check <;> simp

/-! ## Up to the gates -/

/-- The calls of the `try` block up to the gates. -/
def IsWork (i : String) (c : ExecutionContext) : Call → Prop
  | .moveStatus j s => j = i ∧ s = "In Progress"
  | .event c' _ _ | .dispatch c' | .joinHeartbeat c' => c' = c
  | _ => False

theorem postEvents_only {P : CallEvent → Prop} {c : ExecutionContext}
    (hP : ∀ kind payload r, P ⟨.event c kind payload, r⟩)
    (events : List (String × Mapping PyVal)) : Only P (postEvents c events).run := by
  induction events with
  | nil => trivial
  | cons e events ih => exact only_run_bind (fun r => ⟨hP _ _ r, trivial⟩) fun _ => ih

theorem persistEvents_only {P : CallEvent → Prop} {c : ExecutionContext}
    (hP : ∀ kind payload r, P ⟨.event c kind payload, r⟩)
    (events : List (String × RawPayload)) : Only P (persistEvents c events).run :=
  only_run_bind (x := settle _) trivial fun normalized => postEvents_only hP normalized

theorem when_only {P : CallEvent → Prop} {b : Bool} {x : Proc Unit} (hx : Only P x.run) :
    Only P (when b x).run := by
  cases b
  · trivial
  · exact hx

theorem raiseUnless_only {P : CallEvent → Prop} (check : Bool) (e : Exc) :
    Only P (raiseUnless check e).run := by
  cases check <;> trivial

theorem only_settle_bind {P : CallEvent → Prop} {α β : Type} {x : Except Exc α} {f : α → Proc β}
    (h : ∀ a, x = .ok a → Only P (f a).run) : Only P (settle x >>= f).run := by
  cases x with
  | ok a => exact h a rfl
  | error e => trivial

/-- Up to the gates there is no finish, and no move but the one to `In Progress`. -/
theorem dispatchIssue_only (m : Bool) (issue : Issue) (c : ExecutionContext) :
    Only (fun e => IsWork issue.identifier c e.1) (dispatchIssue m issue c).run := by
  unfold dispatchIssue
  refine only_run_bind (when_only fun r => ⟨⟨rfl, rfl⟩, trivial⟩) fun _ => ?_
  refine only_run_bind (x := settle _) trivial fun payload => ?_
  refine only_run_bind (fun r => ⟨rfl, trivial⟩) fun _ => ?_
  refine only_run_bind (fun r => ⟨rfl, trivial⟩) fun result => ?_
  refine only_run_bind (fun r => ⟨rfl, trivial⟩) fun outcomes => ?_
  refine only_run_bind (persistEvents_only (fun _ _ _ => rfl) _) fun _ => ?_
  refine only_run_bind (raiseUnless_only _ _) fun _ => ?_
  exact only_run_bind (raiseUnless_only _ _) fun _ => trivial

/-- The move to `s`, when there is a callback and it succeeds. -/
def movedTo (m : Bool) (i s : String) : List CallEvent :=
  if m then [⟨.moveStatus i s, .ok ()⟩] else []

theorem returns_when_move {m : Bool} {i s : String} {tr : List CallEvent}
    {o : Except Exc Unit} (h : Returns (when m (moveStatus i s)).run tr o) :
    (tr = movedTo m i s ∧ o = .ok ()) ∨
      ∃ e, m = true ∧ tr = [⟨.moveStatus i s, .error e⟩] ∧ o = .error e := by
  cases m with
  | false => exact Or.inl (returns_pure.1 h)
  | true =>
      have htr := returns_moveStatus.1 h
      cases o with
      | ok u => exact Or.inl ⟨htr, rfl⟩
      | error e => exact Or.inr ⟨e, rfl, htr, rfl⟩

theorem validate_dispatched : validateEventPayload "agent.dispatched" (.mapping ∅) = .ok ∅ := rfl

/-- The gates are reached with the issue in progress, the dispatch answered, no heartbeat error
and the events persisted. -/
theorem dispatchIssue_ok {m : Bool} {issue : Issue} {c : ExecutionContext} {tr : List CallEvent}
    {result : ExecutionResult} (h : Returns (dispatchIssue m issue c).run tr (.ok result)) :
    ∃ outcomes posts, tr = movedTo m issue.identifier "In Progress" ++
        [⟨.event c "agent.dispatched" ∅, .ok ()⟩, ⟨.dispatch c, .ok result⟩,
          ⟨.joinHeartbeat c, outcomes⟩] ++ posts ∧
      Returns (persistEvents c result.events).run posts (.ok ()) ∧
      heartbeatErrors outcomes = [] ∧ gatesPassed c.agent result = true := by
  unfold dispatchIssue at h
  obtain ⟨_, _, _, rfl, hmove, h₁⟩ := returns_run_bind_ok.1 h
  obtain ⟨_, _, payload, rfl, hval, h₂⟩ := returns_run_bind_ok.1 h₁
  obtain ⟨_, _, _, rfl, hev, h₃⟩ := returns_run_bind_ok.1 h₂
  obtain ⟨_, _, res, rfl, hdisp, h₄⟩ := returns_run_bind_ok.1 h₃
  obtain ⟨_, _, outcomes, rfl, hjoin, h₅⟩ := returns_run_bind_ok.1 h₄
  obtain ⟨posts, _, _, rfl, hposts, h₆⟩ := returns_run_bind_ok.1 h₅
  obtain ⟨_, _, _, rfl, hhb, h₇⟩ := returns_run_bind_ok.1 h₆
  obtain ⟨_, _, _, rfl, hgate, h₈⟩ := returns_run_bind_ok.1 h₇
  rcases returns_when_move hmove with ⟨rfl, -⟩ | ⟨e, -, -, ho⟩
  swap
  · cases ho
  obtain ⟨rfl, hp⟩ := returns_settle.1 hval
  rw [validate_dispatched] at hp
  cases hp
  obtain rfl := returns_event.1 hev
  obtain rfl := returns_dispatch.1 hdisp
  obtain ⟨_, rfl, ho⟩ := returns_perform.1 hjoin
  cases ho
  obtain ⟨rfl, hclean⟩ := returns_raiseUnless_ok.1 hhb
  obtain ⟨rfl, hpassed⟩ := returns_raiseUnless_ok.1 hgate
  obtain ⟨rfl, ho⟩ := returns_pure.1 h₈
  cases ho
  exact ⟨outcomes, posts, by simp, hposts, by simpa using hclean, hpassed⟩

/-! ## The end of either block -/

theorem dispatchIssue_work {m : Bool} {issue : Issue} {c : ExecutionContext}
    {tr : List CallEvent} {o : Except Exc ExecutionResult}
    (h : Returns (dispatchIssue m issue c).run tr o) :
    ∀ ev ∈ tr, IsWork issue.identifier c ev.1 := (dispatchIssue_only m issue c).mem h

/-- What the `try` block comes to: it stops before the finish, or ends in it. -/
inductive BodyTrace (m : Bool) (issue : Issue) (c : ExecutionContext) :
    List CallEvent → Except Exc ExecutionContext → Prop
  | stopped {tr : List CallEvent} (e : Exc)
      (hdisp : Returns (dispatchIssue m issue c).run tr (.error e)) :
      BodyTrace m issue c tr (.error e)
  | reviewFailed {tr : List CallEvent} (result : ExecutionResult) (e : Exc) (hm : m = true)
      (hdisp : Returns (dispatchIssue m issue c).run tr (.ok result)) :
      BodyTrace m issue c (tr ++ [⟨.moveStatus issue.identifier "In Review", .error e⟩]) (.error e)
  | finished {tr : List CallEvent} (result : ExecutionResult) (r : Except Exc Unit)
      (hdisp : Returns (dispatchIssue m issue c).run tr (.ok result)) :
      BodyTrace m issue c
        (tr ++ movedTo m issue.identifier "In Review" ++ [⟨.finish c "completed" result.fields, r⟩])
        (r.map fun _ => c)

theorem completeIssue_returns {m : Bool} {issue : Issue} {c : ExecutionContext}
    {result : ExecutionResult} {tr : List CallEvent} {o : Except Exc ExecutionContext}
    (h : Returns (completeIssue m issue c result).run tr o) :
    (∃ e, m = true ∧ tr = [⟨.moveStatus issue.identifier "In Review", .error e⟩] ∧
      o = .error e) ∨
    ∃ r, tr = movedTo m issue.identifier "In Review" ++
        [⟨.finish c "completed" result.fields, r⟩] ∧ o = r.map fun _ => c := by
  unfold completeIssue at h
  rcases returns_run_bind.1 h with ⟨tr₁, tr₂, _, rfl, hmove, h₁⟩ | ⟨e, hmove, rfl⟩
  · rcases returns_when_move hmove with ⟨rfl, -⟩ | ⟨e, -, -, ho⟩
    swap
    · cases ho
    rcases returns_run_bind.1 h₁ with ⟨tr₃, tr₄, u, rfl, hfin, h₂⟩ | ⟨e, hfin, rfl⟩
    · obtain rfl := returns_finish.1 hfin
      obtain ⟨rfl, rfl⟩ := returns_pure.1 h₂
      exact Or.inr ⟨.ok u, by simp, rfl⟩
    · obtain rfl := returns_finish.1 hfin
      exact Or.inr ⟨.error e, rfl, rfl⟩
  · rcases returns_when_move hmove with ⟨-, ho⟩ | ⟨e', hm, rfl, ho⟩
    · cases ho
    · cases ho
      exact Or.inl ⟨e, hm, rfl, rfl⟩

theorem executeBody_returns {m : Bool} {issue : Issue} {c : ExecutionContext}
    {tr : List CallEvent} {o : Except Exc ExecutionContext}
    (h : Returns (executeBody m issue c).run tr o) : BodyTrace m issue c tr o := by
  unfold executeBody at h
  rcases returns_run_bind.1 h with ⟨tr₁, tr₂, result, rfl, hdisp, h₁⟩ | ⟨e, hdisp, rfl⟩
  · rcases completeIssue_returns h₁ with ⟨e, hm, rfl, rfl⟩ | ⟨r, rfl, rfl⟩
    · exact .reviewFailed result e hm hdisp
    · rw [← List.append_assoc]
      exact .finished result r hdisp
  · exact .stopped e hdisp

/-- The calls of the `except` block before it decides. -/
def IsCleanup (c : ExecutionContext) : Call → Prop
  | .event c' _ _ | .joinHeartbeat c' => c' = c
  | _ => False

/-- The answers to the `store.event` calls of a trace. -/
def eventAnswers (tr : List CallEvent) : List (Except Exc Unit) :=
  tr.filterMap fun
    | ⟨.event _ _ _, r⟩ => some r
    | _ => none

theorem eventAnswers_append (tr tr' : List CallEvent) :
    eventAnswers (tr ++ tr') = eventAnswers tr ++ eventAnswers tr' := List.filterMap_append

/-- The first error among answers. -/
def firstError : List (Except Exc Unit) → Except Exc Unit
  | [] => .ok ()
  | .ok () :: rest => firstError rest
  | .error e :: _ => .error e

/-- What persisting the events of an exception comes to, given the answers of `store.event`. -/
def carriedOutcome (exc : Exc) (answers : List (Except Exc Unit)) : Except Exc Unit :=
  match exc.event with
  | none => .ok ()
  | some ev =>
      match normalizeEvents [] ev.events with
      | .error e => .error e
      | .ok _ => firstError answers

theorem postEvents_returns {c : ExecutionContext} {events : List (String × Mapping PyVal)}
    {tr : List CallEvent} {o : Except Exc Unit} (h : Returns (postEvents c events).run tr o) :
    o = firstError (eventAnswers tr) := by
  induction events generalizing tr with
  | nil =>
      obtain ⟨rfl, rfl⟩ := returns_pure.1 h
      rfl
  | cons e events ih =>
      rcases returns_run_bind.1 h with ⟨tr₁, tr₂, u, rfl, hev, h₁⟩ | ⟨e', hev, rfl⟩
      · obtain rfl := returns_event.1 hev
        have ho := ih h₁
        rw [ho]
        rfl
      · obtain rfl := returns_event.1 hev
        rfl

theorem persistEvents_returns {c : ExecutionContext} {events : List (String × RawPayload)}
    {tr : List CallEvent} {o : Except Exc Unit} (h : Returns (persistEvents c events).run tr o) :
    o = match normalizeEvents [] events with
      | .error e => .error e
      | .ok _ => firstError (eventAnswers tr) := by
  unfold persistEvents at h
  rcases returns_run_bind.1 h with ⟨tr₁, tr₂, normalized, rfl, hnorm, h₁⟩ | ⟨e', hnorm, rfl⟩
  · obtain ⟨rfl, heq⟩ := returns_settle.1 hnorm
    rw [← heq]
    exact postEvents_returns h₁
  · obtain ⟨rfl, heq⟩ := returns_settle.1 hnorm
    rw [← heq]

theorem persistCarried_only (c : ExecutionContext) (exc : Exc) :
    Only (fun e => IsCleanup c e.1) (persistCarried c exc).run := by
  unfold persistCarried
  cases exc.event with
  | none => trivial
  | some ev => exact only_bind (persistEvents_only (fun _ _ _ => rfl) _) fun _ => trivial

/-- Persisting is observed: it raises nothing by itself. -/
theorem persistCarried_returns {c : ExecutionContext} {exc : Exc} {tr : List CallEvent}
    {o : Except Exc (Except Exc Unit)} (h : Returns (persistCarried c exc).run tr o) :
    o = .ok (carriedOutcome exc (eventAnswers tr)) := by
  unfold persistCarried at h
  unfold carriedOutcome
  split at h
  · rename_i ev hev
    obtain ⟨tr₁, tr₂, persisted, rfl, hpers, h₁⟩ := returns_bind.1 h
    obtain ⟨rfl, rfl⟩ := returns_ret.1 h₁
    rw [hev, persistEvents_returns hpers, List.append_nil]
  · rename_i hev
    rw [hev]
    exact (returns_pure.1 h).2

/-- What the `except` block comes to: the move to `Blocked` raises, or it ends in its finish. -/
inductive FailTrace (m : Bool) (i : String) (c : ExecutionContext) (exc : Exc) :
    List CallEvent → Except Exc ExecutionContext → Prop
  | moveFailed {tr : List CallEvent} (e : Exc) (hm : m = true)
      (hclean : ∀ ev ∈ tr, IsCleanup c ev.1)
      (hblocked : (finishError exc (carriedOutcome exc (eventAnswers tr))).isBlocked = true) :
      FailTrace m i c exc (tr ++ [⟨.moveStatus i "Blocked", .error e⟩]) (.error e)
  | blocked {tr : List CallEvent} (r : Except Exc Unit) (e : Exc)
      (hclean : ∀ ev ∈ tr, IsCleanup c ev.1)
      (hblocked : (finishError exc (carriedOutcome exc (eventAnswers tr))).isBlocked = true) :
      FailTrace m i c exc
        (tr ++ movedTo m i "Blocked" ++ [⟨.finish c "blocked"
          (errorFields (errorType exc (carriedOutcome exc (eventAnswers tr)))), r⟩]) (.error e)
  | failed {tr : List CallEvent} (r : Except Exc Unit) (e : Exc)
      (hclean : ∀ ev ∈ tr, IsCleanup c ev.1)
      (hblocked : (finishError exc (carriedOutcome exc (eventAnswers tr))).isBlocked = false) :
      FailTrace m i c exc
        (tr ++ [⟨.finish c "failed"
          (errorFields (errorType exc (carriedOutcome exc (eventAnswers tr)))), r⟩]) (.error e)

theorem finish_throw_returns {c : ExecutionContext} {s : String} {fields : Mapping String}
    {exc : Exc} {tr : List CallEvent} {o : Except Exc ExecutionContext}
    (h : Returns (do finish c s fields; throw exc : Proc ExecutionContext).run tr o) :
    ∃ r e, tr = [⟨.finish c s fields, r⟩] ∧ o = .error e := by
  rcases returns_run_bind.1 h with ⟨tr₁, tr₂, u, rfl, hfin, h₁⟩ | ⟨e, hfin, rfl⟩
  · obtain rfl := returns_finish.1 hfin
    obtain ⟨rfl, rfl⟩ := returns_throw.1 h₁
    exact ⟨.ok u, exc, by simp, rfl⟩
  · exact ⟨.error e, e, returns_finish.1 hfin, rfl⟩

theorem failIssue_returns {m : Bool} {issue : Issue} {c : ExecutionContext} {exc : Exc}
    {pre tr : List CallEvent} {o : Except Exc ExecutionContext}
    (hclean : ∀ ev ∈ pre, IsCleanup c ev.1)
    (h : Returns (failIssue m issue c exc (carriedOutcome exc (eventAnswers pre))).run tr o) :
    FailTrace m issue.identifier c exc (pre ++ tr) o := by
  unfold failIssue at h
  cases hb : (finishError exc (carriedOutcome exc (eventAnswers pre))).isBlocked with
  | true =>
      simp only [hb, Bool.true_and, if_true] at h
      rcases returns_run_bind.1 h with ⟨tr₁, tr₂, _, rfl, hmove, h₁⟩ | ⟨e, hmove, rfl⟩
      · rcases returns_when_move hmove with ⟨rfl, -⟩ | ⟨e, -, -, ho⟩
        swap
        · cases ho
        obtain ⟨r, e, rfl, rfl⟩ := finish_throw_returns h₁
        rw [← List.append_assoc]
        exact .blocked r e hclean hb
      · rcases returns_when_move hmove with ⟨-, ho⟩ | ⟨e', hm, rfl, ho⟩
        · cases ho
        · cases ho
          exact .moveFailed e hm hclean hb
  | false =>
      simp only [hb, Bool.false_and] at h
      rcases returns_run_bind.1 h with ⟨tr₁, tr₂, _, rfl, hmove, h₁⟩ | ⟨e, hmove, rfl⟩
      · obtain ⟨rfl, -⟩ := returns_pure.1 hmove
        obtain ⟨r, e, rfl, rfl⟩ := finish_throw_returns h₁
        exact .failed r e hclean hb
      · cases (returns_pure.1 hmove).2

theorem executeFailed_returns {m : Bool} {issue : Issue} {c : ExecutionContext} {exc : Exc}
    {tr : List CallEvent} {o : Except Exc ExecutionContext}
    (h : Returns (executeFailed m issue c exc).run tr o) :
    FailTrace m issue.identifier c exc tr o := by
  unfold executeFailed at h
  rcases returns_run_bind.1 h with ⟨tr₁, tr₂, _, rfl, hjoin, h₁⟩ | ⟨e, hjoin, rfl⟩
  swap
  · obtain ⟨_, -, ho⟩ := returns_perform.1 hjoin
    cases ho
  obtain ⟨outcomes, rfl, -⟩ := returns_perform.1 hjoin
  rcases returns_run_bind.1 h₁ with ⟨posts, tr₄, persisted, rfl, hpers, h₂⟩ | ⟨e, hpers, rfl⟩
  · have hpersisted := persistCarried_returns hpers
    rw [Except.ok.injEq] at hpersisted
    rw [hpersisted] at h₂
    rw [← List.append_assoc]
    refine failIssue_returns (fun ev hev => ?_) h₂
    rcases List.mem_append.1 hev with hev | hev
    · rw [List.mem_singleton.1 hev]
      exact rfl
    · exact (persistCarried_only c exc).mem hpers ev hev
  · cases persistCarried_returns hpers

/-! ## Whole executions -/

/-- The context `execute` builds for an issue it accepts. -/
def IsContextOf (issue : Issue) (c : ExecutionContext) : Prop :=
  classifyIssue issue = .ok (c.agent, c.risk, c.executionMode, c.environment) ∧
    c.linearIssueId = issue.identifier ∧ ∃ millis random, c.runId = newRunId millis random

/-- The steps of an execution that gets no claim. -/
def IsRefusal : CallEvent → Prop
  | ⟨.entropy, _⟩ | ⟨.lockRejected _ _, _⟩ | ⟨.claim _ _, .error _⟩ => True
  | _ => False

/-- The steps that open a claimed execution. -/
def claimSteps (rt : AgentRuntime) (c : ExecutionContext) (drawn : Nat × Fin (2 ^ 80)) :
    List CallEvent :=
  [⟨.entropy, drawn⟩, ⟨.claim c rt.ttlSeconds, .ok ()⟩, ⟨.startHeartbeat c rt.ttlSeconds, ()⟩]

/-- The steps of a claim: where the store raises, the claim raises the same, or what the report of
a conflict raises. -/
theorem claimIssue_steps {rt : AgentRuntime} {c : ExecutionContext} {tr : List CallEvent}
    {o : Except Exc Unit} (h : Returns (claimIssue rt c).run tr o) :
    ∃ r rest, tr = ⟨.claim c rt.ttlSeconds, r⟩ :: rest ∧
      ((r = .ok () ∧ rest = [] ∧ o = .ok ()) ∨
        ∃ e, r = .error e ∧ (∀ ev ∈ rest, ∃ r', ev = ⟨.lockRejected c "RunConflict", r'⟩) ∧
          (o = .error e ∨ e.isConflict = true ∧ ∃ e', o = .error e' ∧
            (⟨.lockRejected c "RunConflict", .error e'⟩ : CallEvent) ∈ rest)) := by
  unfold claimIssue at h
  rcases returns_run_tryCatch.1 h with ⟨_, hclaim, rfl⟩ | ⟨tr₁, rest, e, rfl, hclaim, h₁⟩
  · exact ⟨_, [], returns_claim.1 hclaim, Or.inl ⟨rfl, rfl, rfl⟩⟩
  obtain rfl := returns_claim.1 hclaim
  refine ⟨_, rest, rfl, Or.inr ⟨e, rfl, ?_⟩⟩
  by_cases hreport : (e.isConflict && rt.lockRejectionSink) = true
  · rw [hreport] at h₁
    rcases returns_run_bind.1 h₁ with ⟨tr₂, tr₃, u, rfl, hlock, h₂⟩ | ⟨e', hlock, rfl⟩
    · obtain rfl : tr₂ = [⟨.lockRejected c "RunConflict", .ok u⟩] := returns_call_ret.1 hlock
      obtain ⟨rfl, rfl⟩ := returns_throw.1 h₂
      exact ⟨fun ev hev => ⟨_, List.mem_singleton.1 hev⟩, Or.inl rfl⟩
    · obtain rfl : rest = [⟨.lockRejected c "RunConflict", .error e'⟩] := returns_call_ret.1 hlock
      exact ⟨fun ev hev => ⟨_, List.mem_singleton.1 hev⟩,
        Or.inr ⟨(Bool.and_eq_true_iff.1 hreport).1, e', rfl, List.mem_singleton_self _⟩⟩
  · have hno : (e.isConflict && rt.lockRejectionSink) = false := by simpa using hreport
    rw [hno] at h₁
    obtain ⟨rfl, rfl⟩ := returns_throw.1 h₁
    exact ⟨List.forall_mem_nil _, Or.inl rfl⟩

theorem claimIssue_returns {rt : AgentRuntime} {c : ExecutionContext} {tr : List CallEvent}
    {o : Except Exc Unit} (h : Returns (claimIssue rt c).run tr o) :
    (tr = [⟨.claim c rt.ttlSeconds, .ok ()⟩] ∧ o = .ok ()) ∨
      ((∀ ev ∈ tr, IsRefusal ev) ∧ ∃ e, o = .error e) := by
  obtain ⟨r, rest, rfl, ⟨rfl, rfl, rfl⟩ | ⟨e, rfl, hrest, ho⟩⟩ := claimIssue_steps h
  · exact Or.inl ⟨rfl, rfl⟩
  · refine Or.inr ⟨fun ev hev => ?_, ?_⟩
    · rcases List.mem_cons.1 hev with rfl | hev
      · trivial
      · obtain ⟨r', rfl⟩ := hrest ev hev
        trivial
    · rcases ho with rfl | ⟨-, e', rfl, -⟩
      · exact ⟨e, rfl⟩
      · exact ⟨e', rfl⟩

/-- **The steps of `execute`**: there is no claim, or the claim is followed by the `try` block and
its `except` block. -/
theorem execute_claims {rt : AgentRuntime} {m : Bool} {issue : Issue} {tr : List CallEvent}
    {o : Except Exc ExecutionContext} (h : Returns (rt.execute m issue).run tr o) :
    ((∀ ev ∈ tr, IsRefusal ev) ∧ ∃ e, o = .error e) ∨
      ∃ c drawn own, tr = claimSteps rt c drawn ++ own ∧ IsContextOf issue c ∧
        Returns (tryCatch (executeBody m issue c)
          fun exc => executeFailed m issue c exc).run own o := by
  unfold AgentRuntime.execute at h
  rcases returns_run_bind.1 h with ⟨_, tr₁, fields, rfl, hclass, h₁⟩ | ⟨e, hclass, rfl⟩
  swap
  · obtain ⟨rfl, -⟩ := returns_settle.1 hclass
    exact Or.inl ⟨by simp, e, rfl⟩
  obtain ⟨rfl, hfields⟩ := returns_settle.1 hclass
  obtain ⟨agent, risk, mode, environment⟩ := fields
  rcases returns_run_bind.1 h₁ with ⟨_, tr₂, drawn, rfl, hdraw, h₂⟩ | ⟨e, hdraw, rfl⟩
  swap
  · obtain ⟨_, -, ho⟩ := returns_perform.1 hdraw
    cases ho
  obtain ⟨_, rfl, ho⟩ := returns_perform.1 hdraw
  cases ho
  obtain ⟨millis, random⟩ := drawn
  simp only [] at h₂
  generalize hc : (⟨newRunId millis random, issue.identifier, agent, risk, mode, environment⟩ :
    ExecutionContext) = c at h₂
  have hcontext : IsContextOf issue c := by
    subst hc
    exact ⟨hfields.symm, rfl, millis, random, rfl⟩
  rcases returns_run_bind.1 h₂ with ⟨_, tr₃, _, rfl, hclaim, h₃⟩ | ⟨e, hclaim, rfl⟩
  swap
  · rcases claimIssue_returns hclaim with ⟨-, ho⟩ | ⟨hrefused, -⟩
    · cases ho
    · refine Or.inl ⟨fun ev hev => ?_, e, rfl⟩
      rcases List.mem_append.1 hev with hev | hev
      · simp at hev
      · rcases List.mem_append.1 hev with hev | hev
        · rw [List.mem_singleton.1 hev]
          trivial
        · exact hrefused ev hev
  rcases claimIssue_returns hclaim with ⟨rfl, -⟩ | ⟨-, e, ho⟩
  swap
  · cases ho
  rcases returns_run_bind.1 h₃ with ⟨_, tr₄, _, rfl, hstart, h₄⟩ | ⟨e, hstart, rfl⟩
  swap
  · obtain ⟨_, -, ho⟩ := returns_perform.1 hstart
    cases ho
  obtain ⟨u, rfl, -⟩ := returns_perform.1 hstart
  obtain rfl : u = () := rfl
  exact Or.inr ⟨c, (millis, random), tr₄, by simp [claimSteps], hcontext, h₄⟩

/-- **The traces of `execute`.** Either there is no claim, or the claim is followed by the `try`
block, and where that raises by the `except` block. -/
theorem execute_returns {rt : AgentRuntime} {m : Bool} {issue : Issue} {tr : List CallEvent}
    {o : Except Exc ExecutionContext} (h : Returns (rt.execute m issue).run tr o) :
    ((∀ ev ∈ tr, IsRefusal ev) ∧ ∃ e, o = .error e) ∨
      ∃ c drawn body rest, tr = claimSteps rt c drawn ++ body ++ rest ∧ IsContextOf issue c ∧
        ((∃ c', o = .ok c' ∧ rest = [] ∧ BodyTrace m issue c body o) ∨
          ∃ e, BodyTrace m issue c body (.error e) ∧
            FailTrace m issue.identifier c e rest o) := by
  refine (execute_claims h).imp_right fun ⟨c, drawn, own, htr, hcontext, hown⟩ => ?_
  rcases returns_run_tryCatch.1 hown with ⟨c', hbody, rfl⟩ | ⟨body, rest, e, rfl, hbody, hfail⟩
  · exact ⟨c, drawn, own, [], by rw [htr, List.append_nil], hcontext,
      Or.inl ⟨c', rfl, rfl, executeBody_returns hbody⟩⟩
  · exact ⟨c, drawn, body, rest, by rw [htr, List.append_assoc], hcontext,
      Or.inr ⟨e, executeBody_returns hbody, executeFailed_returns hfail⟩⟩

/-! ## Moves and finishes of a trace -/

/-- The status and the answer of a `move_status` call. -/
def moveOf : CallEvent → Option (String × Except Exc Unit)
  | ⟨.moveStatus _ s, r⟩ => some (s, r)
  | _ => none

/-- The status and the answer of a `store.finish` call. -/
def finishOf : CallEvent → Option (String × Except Exc Unit)
  | ⟨.finish _ s _, r⟩ => some (s, r)
  | _ => none

/-- The claim went through. -/
def claimed (tr : List CallEvent) : Bool :=
  tr.any fun
    | ⟨.claim _ _, .ok ()⟩ => true
    | _ => false

/-- Every `move_status` call went through. -/
def movesSucceed (tr : List CallEvent) : Bool := (tr.filterMap moveOf).all (·.2.isOk)

/-- The `store.finish` calls of a trace, with their answers. -/
def finishes (tr : List CallEvent) : List (String × Except Exc Unit) := tr.filterMap finishOf

/-- The last status passed to `move_status`. -/
def lastMove (tr : List CallEvent) : Option String := (tr.filterMap moveOf).getLast?.map Prod.fst

@[simp] theorem finishes_append (tr tr' : List CallEvent) :
    finishes (tr ++ tr') = finishes tr ++ finishes tr' := List.filterMap_append

@[simp] theorem lastMove_append (tr tr' : List CallEvent) :
    lastMove (tr ++ tr') = (lastMove tr').or (lastMove tr) := by
  simp only [lastMove, List.filterMap_append, List.getLast?_append]
  cases (tr'.filterMap moveOf).getLast? <;> simp

@[simp] theorem finishes_claimSteps (rt : AgentRuntime) (c : ExecutionContext)
    (drawn : Nat × Fin (2 ^ 80)) : finishes (claimSteps rt c drawn) = [] := rfl

@[simp] theorem lastMove_claimSteps (rt : AgentRuntime) (c : ExecutionContext)
    (drawn : Nat × Fin (2 ^ 80)) : lastMove (claimSteps rt c drawn) = none := rfl

@[simp] theorem finishes_nil : finishes [] = [] := rfl

@[simp] theorem lastMove_nil : lastMove [] = none := rfl

@[simp] theorem finishes_finish (c : ExecutionContext) (s : String) (fields : Mapping String)
    (r : Except Exc Unit) (tr : List CallEvent) :
    finishes (⟨.finish c s fields, r⟩ :: tr) = (s, r) :: finishes tr := rfl

@[simp] theorem lastMove_finish (c : ExecutionContext) (s : String) (fields : Mapping String)
    (r : Except Exc Unit) (tr : List CallEvent) :
    lastMove (⟨.finish c s fields, r⟩ :: tr) = lastMove tr := rfl

@[simp] theorem finishes_move (i s : String) (r : Except Exc Unit) (tr : List CallEvent) :
    finishes (⟨.moveStatus i s, r⟩ :: tr) = finishes tr := rfl

@[simp] theorem lastMove_move (i s : String) (r : Except Exc Unit) :
    lastMove [⟨.moveStatus i s, r⟩] = some s := rfl

@[simp] theorem finishes_movedTo (m : Bool) (i s : String) : finishes (movedTo m i s) = [] := by
  cases m <;> rfl

@[simp] theorem lastMove_movedTo (i s : String) : lastMove (movedTo true i s) = some s := rfl

theorem not_claimed_of_refused {tr : List CallEvent} (h : ∀ ev ∈ tr, IsRefusal ev) :
    claimed tr = false := by
  refine List.any_eq_false.2 fun ev hev => ?_
  have hrefused := h ev hev
  split
  · exact hrefused.elim
  · simp

theorem movesSucceed_append (tr tr' : List CallEvent) :
    movesSucceed (tr ++ tr') = (movesSucceed tr && movesSucceed tr') := by
  simp [movesSucceed, List.filterMap_append]

@[simp] theorem movesSucceed_raised (i s : String) (e : Exc) :
    movesSucceed [⟨.moveStatus i s, .error e⟩] = false := rfl

theorem finishes_eq_nil {tr : List CallEvent} (h : ∀ ev ∈ tr, finishOf ev = none) :
    finishes tr = [] := List.filterMap_eq_nil_iff.2 h

theorem finishes_work {i : String} {c : ExecutionContext} {tr : List CallEvent}
    (h : ∀ ev ∈ tr, IsWork i c ev.1) : finishes tr = [] := by
  refine finishes_eq_nil fun ev hev => ?_
  obtain ⟨call, r⟩ := ev
  cases call <;> first | rfl | exact (h _ hev).elim

theorem finishes_cleanup {c : ExecutionContext} {tr : List CallEvent}
    (h : ∀ ev ∈ tr, IsCleanup c ev.1) : finishes tr = [] := by
  refine finishes_eq_nil fun ev hev => ?_
  obtain ⟨call, r⟩ := ev
  cases call <;> first | rfl | exact (h _ hev).elim

theorem lastMove_cleanup {c : ExecutionContext} {tr : List CallEvent}
    (h : ∀ ev ∈ tr, IsCleanup c ev.1) : lastMove tr = none := by
  have hnil : tr.filterMap moveOf = [] := by
    refine List.filterMap_eq_nil_iff.2 fun ev hev => ?_
    obtain ⟨call, r⟩ := ev
    cases call <;> first | rfl | exact (h _ hev).elim
  simp [lastMove, hnil]

theorem lastMove_work {i : String} {c : ExecutionContext} {tr : List CallEvent}
    (h : ∀ ev ∈ tr, IsWork i c ev.1) :
    lastMove tr = none ∨ lastMove tr = some "In Progress" := by
  unfold lastMove
  cases hlast : (tr.filterMap moveOf).getLast? with
  | none => exact Or.inl rfl
  | some sr =>
      right
      obtain ⟨⟨call, r⟩, hev, hmove⟩ := List.mem_filterMap.1 (List.mem_of_getLast? hlast)
      cases call <;> cases hmove
      exact congrArg some (h _ hev).2

end HermesRuntime
