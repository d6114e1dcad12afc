import HermesRuntime.RuntimeProof

/-!
# The runtime: whose calls an execution makes, and in which order

What the shape of its traces says of an execution that may be cut short anywhere: after the
claim every call is its own, there is at most one dispatch, and only behind the gates is
anything completed.

* `execute_extends`, `own_after_claim` — the steps after a claim that went through.
* `execute_dispatch`, `dispatch_unique` — the dispatch.
* `gates_of_completes`, `completed_result` — the way to a completed run.
* `finish_of_execute`, `claim_of_execute` — what a finish and a claim come with.
* `execute_accepted` — a claim that is refused.
-/

namespace HermesRuntime

open Effects Prog Proc

/-! ## Every step of either block -/

theorem executeBody_only {P : CallEvent → Prop} {m : Bool} {issue : Issue} {c : ExecutionContext}
    (hwork : ∀ ev, IsWork issue.identifier c ev.1 → P ev)
    (hmove : ∀ r, P ⟨.moveStatus issue.identifier "In Review", r⟩)
    (hfinish : ∀ s fields r, P ⟨.finish c s fields, r⟩) :
    Only P (executeBody m issue c).run := by
  unfold executeBody
  refine only_run_bind ((dispatchIssue_only m issue c).mono hwork) fun result => ?_
  unfold completeIssue
  refine only_run_bind (when_only fun r => ⟨hmove r, trivial⟩) fun _ => ?_
  exact only_run_bind (fun r => ⟨hfinish _ _ r, trivial⟩) fun _ => trivial

theorem executeFailed_only {P : CallEvent → Prop} {m : Bool} {issue : Issue}
    {c : ExecutionContext} (exc : Exc) (hclean : ∀ ev, IsCleanup c ev.1 → P ev)
    (hmove : ∀ r, P ⟨.moveStatus issue.identifier "Blocked", r⟩)
    (hfinish : ∀ s fields r, P ⟨.finish c s fields, r⟩) :
    Only P (executeFailed m issue c exc).run := by
  unfold executeFailed
  refine only_run_bind (fun r => ⟨hclean ⟨.joinHeartbeat c, r⟩ rfl, trivial⟩) fun _ => ?_
  refine only_run_bind ((persistCarried_only c exc).mono hclean) fun persisted => ?_
  unfold failIssue
  refine only_run_bind (when_only fun r => ⟨hmove r, trivial⟩) fun _ => ?_
  exact only_run_bind (fun r => ⟨hfinish _ _ r, trivial⟩) fun _ => trivial

/-! ## Whose calls they are -/

/-- The calls of an execution for `c` once it holds the claim. -/
def IsOwn (i : String) (c : ExecutionContext) : Call → Prop
  | .moveStatus j _ => j = i
  | .event c' _ _ | .dispatch c' | .joinHeartbeat c' | .finish c' _ _ => c' = c
  | _ => False

theorem isOwn_of_work {i : String} {c : ExecutionContext} {call : Call} (h : IsWork i c call) :
    IsOwn i c call := by
  cases call <;> first | exact h.1 | exact h | exact h.elim

theorem isOwn_of_cleanup {i : String} {c : ExecutionContext} {call : Call}
    (h : IsCleanup c call) : IsOwn i c call := by
  cases call <;> first | exact h | exact h.elim

/-- The steps of the `try` block up to the gates, and those after them. -/
theorem bodyTrace_split {m : Bool} {issue : Issue} {c : ExecutionContext} {tr : List CallEvent}
    {o : Except Exc ExecutionContext} (h : BodyTrace m issue c tr o) : ∃ work tail o',
    tr = work ++ tail ∧ Returns (dispatchIssue m issue c).run work o' ∧
      ∀ ev ∈ tail, ∃ result, o' = .ok result ∧
        ((∃ r, ev = ⟨.moveStatus issue.identifier "In Review", r⟩) ∨
          ∃ r, ev = ⟨.finish c "completed" result.fields, r⟩) := by
  cases h with
  | stopped e hdisp => exact ⟨tr, [], _, by simp, hdisp, List.forall_mem_nil _⟩
  | reviewFailed result e hm hdisp =>
      exact ⟨_, _, _, rfl, hdisp, fun ev hev =>
        ⟨result, rfl, Or.inl ⟨.error e, List.mem_singleton.1 hev⟩⟩⟩
  | finished result r hdisp =>
      refine ⟨_, _, _, List.append_assoc _ _ _, hdisp, fun ev hev => ⟨result, rfl, ?_⟩⟩
      rcases List.mem_append.1 hev with hev | hev
      · cases m
        · cases hev
        · exact Or.inl ⟨_, List.mem_singleton.1 hev⟩
      · exact Or.inr ⟨_, List.mem_singleton.1 hev⟩

theorem bodyTrace_own {m : Bool} {issue : Issue} {c : ExecutionContext} {tr : List CallEvent}
    {o : Except Exc ExecutionContext} (h : BodyTrace m issue c tr o) :
    ∀ ev ∈ tr, IsOwn issue.identifier c ev.1 := by
  obtain ⟨work, tail, o', rfl, hdisp, htail⟩ := bodyTrace_split h
  intro ev hev
  rcases List.mem_append.1 hev with hev | hev
  · exact isOwn_of_work (dispatchIssue_work hdisp ev hev)
  · obtain ⟨result, -, hev⟩ := htail ev hev
    rcases hev with ⟨r, rfl⟩ | ⟨r, rfl⟩ <;> exact rfl

/-- What holds of everything the `except` block can do holds of its steps. -/
theorem failTrace_forall {m : Bool} {i : String} {c : ExecutionContext} {exc : Exc}
    {tr : List CallEvent} {o : Except Exc ExecutionContext} (h : FailTrace m i c exc tr o)
    {P : CallEvent → Prop} (hclean : ∀ ev, IsCleanup c ev.1 → P ev)
    (hmove : ∀ r, P ⟨.moveStatus i "Blocked", r⟩)
    (hfinish : ∀ s name r, s = "failed" ∨ s = "blocked" →
      P ⟨.finish c s (errorFields name), r⟩) : ∀ ev ∈ tr, P ev := by
  intro ev hev
  cases h with
  | moveFailed e hm hcl hblocked =>
      rcases List.mem_append.1 hev with hev | hev
      · exact hclean ev (hcl ev hev)
      · rw [List.mem_singleton.1 hev]
        exact hmove _
  | blocked r e hcl hblocked =>
      rcases List.mem_append.1 hev with hev | hev
      · rcases List.mem_append.1 hev with hev | hev
        · exact hclean ev (hcl ev hev)
        · cases m
          · cases hev
          · rw [List.mem_singleton.1 hev]
            exact hmove _
      · rw [List.mem_singleton.1 hev]
        exact hfinish _ _ _ (Or.inr rfl)
  | failed r e hcl hblocked =>
      rcases List.mem_append.1 hev with hev | hev
      · exact hclean ev (hcl ev hev)
      · rw [List.mem_singleton.1 hev]
        exact hfinish _ _ _ (Or.inl rfl)

theorem failTrace_own {m : Bool} {i : String} {c : ExecutionContext} {exc : Exc}
    {tr : List CallEvent} {o : Except Exc ExecutionContext} (h : FailTrace m i c exc tr o) :
    ∀ ev ∈ tr, IsOwn i c ev.1 :=
  failTrace_forall h (fun _ => isOwn_of_cleanup) (fun _ => rfl) fun _ _ _ _ => rfl

/-- The blocks of a claimed execution: the `try` block, and where it raised the other. -/
theorem blocks_of_ends {m : Bool} {issue : Issue} {c : ExecutionContext}
    {body rest : List CallEvent} {o : Except Exc ExecutionContext}
    (h : (∃ c', o = .ok c' ∧ rest = [] ∧ BodyTrace m issue c body o) ∨
      ∃ e, BodyTrace m issue c body (.error e) ∧ FailTrace m issue.identifier c e rest o) :
    (∃ o', BodyTrace m issue c body o') ∧
      (rest = [] ∨ ∃ e, FailTrace m issue.identifier c e rest o) := by
  rcases h with ⟨-, -, rfl, hbody⟩ | ⟨e, hbody, hfail⟩
  · exact ⟨⟨_, hbody⟩, Or.inl rfl⟩
  · exact ⟨⟨_, hbody⟩, Or.inr ⟨e, hfail⟩⟩

/-- After its claim an execution makes calls of its own. -/
theorem claimed_own {m : Bool} {issue : Issue} {c : ExecutionContext} {body rest : List CallEvent}
    {o : Except Exc ExecutionContext}
    (h : (∃ c', o = .ok c' ∧ rest = [] ∧ BodyTrace m issue c body o) ∨
      ∃ e, BodyTrace m issue c body (.error e) ∧ FailTrace m issue.identifier c e rest o) :
    ∀ ev ∈ body ++ rest, IsOwn issue.identifier c ev.1 := by
  obtain ⟨⟨o', hbody⟩, hrest⟩ := blocks_of_ends h
  intro ev hev
  rcases List.mem_append.1 hev with hev | hev
  · exact bodyTrace_own hbody ev hev
  · rcases hrest with rfl | ⟨e, hfail⟩
    · cases hev
    · exact failTrace_own hfail ev hev

/-- A claim in the trace of a claimed execution is its second step. -/
theorem claim_second {rt : AgentRuntime} {i : String} {c c' : ExecutionContext}
    {drawn : Nat × Fin (2 ^ 80)} {pre tail post : List CallEvent} {ttl : Int}
    {r : Except Exc Unit} (hown : ∀ ev ∈ tail, IsOwn i c ev.1)
    (h : claimSteps rt c drawn ++ tail = pre ++ ⟨.claim c' ttl, r⟩ :: post) :
    pre = [⟨.entropy, drawn⟩] ∧ c' = c ∧ ttl = rt.ttlSeconds ∧
      post = ⟨.startHeartbeat c rt.ttlSeconds, ()⟩ :: tail := by
  match pre, h with
  | [], h => cases h
  | [ev], h =>
      cases h
      exact ⟨rfl, rfl, rfl, rfl⟩
  | ev :: ev' :: [], h => cases h
  | ev :: ev' :: ev'' :: pre, h =>
      have htail : tail = pre ++ ⟨.claim c' ttl, r⟩ :: post := by
        injection h with _ h
        injection h with _ h
        injection h
      exact (hown ⟨.claim c' ttl, r⟩ (by rw [htail]; simp)).elim

/-- **The claimed executions, whole or cut short**: the trace so far goes on to a whole one. -/
theorem execute_extends {rt : AgentRuntime} {m : Bool} {issue : Issue}
    {pre post : List CallEvent} {q : Prog Call Call.Resp (Except Exc ExecutionContext)}
    {c : ExecutionContext} {ttl : Int}
    (h : Reach (rt.execute m issue).run (pre ++ ⟨.claim c ttl, .ok ()⟩ :: post) q) :
    ∃ drawn body rest later o, pre = [⟨.entropy, drawn⟩] ∧ IsContextOf issue c ∧
      ttl = rt.ttlSeconds ∧
      post ++ later = ⟨.startHeartbeat c rt.ttlSeconds, ()⟩ :: (body ++ rest) ∧
        ((∃ c', o = .ok c' ∧ rest = [] ∧ BodyTrace m issue c body o) ∨
          ∃ e, BodyTrace m issue c body (.error e) ∧
            FailTrace m issue.identifier c e rest o) := by
  obtain ⟨later, o, hreturns⟩ := h.extend
  rcases execute_returns hreturns with
    ⟨hrefused, -⟩ | ⟨c₁, drawn, body, rest, htr, hcontext, hends⟩
  · exact (hrefused ⟨.claim c ttl, .ok ()⟩ (by simp)).elim
  rw [List.append_assoc, List.append_assoc, List.cons_append] at htr
  obtain ⟨hpre, rfl, httl, hpost⟩ := claim_second (claimed_own hends) htr.symm
  exact ⟨drawn, body, rest, later, o, hpre, hcontext, httl, hpost, hends⟩

/-- After its claim an execution starts its heartbeats, and makes calls of its own. -/
theorem own_after_claim {rt : AgentRuntime} {m : Bool} {issue : Issue}
    {pre post : List CallEvent} {q : Prog Call Call.Resp (Except Exc ExecutionContext)}
    {c : ExecutionContext} {ttl : Int}
    (h : Reach (rt.execute m issue).run (pre ++ ⟨.claim c ttl, .ok ()⟩ :: post) q) :
    (∃ drawn, pre = [⟨.entropy, drawn⟩]) ∧ (post = [] ∨
      ∃ own, post = ⟨.startHeartbeat c rt.ttlSeconds, ()⟩ :: own ∧
        ∀ ev ∈ own, IsOwn issue.identifier c ev.1) := by
  obtain ⟨drawn, body, rest, later, o, hpre, -, -, hpost, hends⟩ := execute_extends h
  refine ⟨⟨drawn, hpre⟩, ?_⟩
  cases post with
  | nil => exact Or.inl rfl
  | cons ev own =>
      rw [List.cons_append] at hpost
      injection hpost with hstart hown
      refine Or.inr ⟨own, by rw [hstart], fun ev' hev' => claimed_own hends ev' ?_⟩
      rw [← hown]
      exact List.mem_append_left _ hev'

/-- An execution has one claim that goes through. -/
theorem claim_unique {rt : AgentRuntime} {m : Bool} {issue : Issue} {tr : List CallEvent}
    {q : Prog Call Call.Resp (Except Exc ExecutionContext)}
    (h : Reach (rt.execute m issue).run tr q) {c c' : ExecutionContext} {ttl ttl' : Int}
    (hclaim : (⟨.claim c ttl, .ok ()⟩ : CallEvent) ∈ tr)
    (hclaim' : (⟨.claim c' ttl', .ok ()⟩ : CallEvent) ∈ tr) : c' = c := by
  obtain ⟨pre, post, rfl⟩ := List.append_of_mem hclaim
  obtain ⟨⟨drawn, rfl⟩, hpost⟩ := own_after_claim h
  rcases List.mem_append.1 hclaim' with hmem | hmem
  · cases List.mem_singleton.1 hmem
  rcases List.mem_cons.1 hmem with heq | hmem
  · cases heq
    rfl
  · rcases hpost with rfl | ⟨own, rfl, hown⟩
    · cases hmem
    · rcases List.mem_cons.1 hmem with heq | hmem
      · cases heq
      · exact (hown _ hmem).elim

/-! ## The dispatch of an execution -/

/-- The event is a dispatch. -/
def IsDispatch : CallEvent → Prop
  | ⟨.dispatch _, _⟩ => True
  | _ => False

theorem exists_of_isDispatch {ev : CallEvent} (h : IsDispatch ev) :
    ∃ c r, ev = ⟨.dispatch c, r⟩ := by
  obtain ⟨call, r⟩ := ev
  cases call
  case dispatch c => exact ⟨c, r, rfl⟩
  all_goals exact h.elim

theorem not_dispatch_of_cleanup {c : ExecutionContext} {ev : CallEvent}
    (h : IsCleanup c ev.1) : ¬ IsDispatch ev := by
  intro hdisp
  obtain ⟨c', r, rfl⟩ := exists_of_isDispatch hdisp
  exact h

theorem not_dispatch_movedTo {m : Bool} {i s : String} :
    ∀ ev ∈ movedTo m i s, ¬ IsDispatch ev := by
  intro ev hev
  cases m
  · cases hev
  · rw [List.mem_singleton.1 hev]
    exact id

theorem not_dispatch_claimSteps {rt : AgentRuntime} {c : ExecutionContext}
    {drawn : Nat × Fin (2 ^ 80)} : ∀ ev ∈ claimSteps rt c drawn, ¬ IsDispatch ev := by
  intro ev hev
  simp only [claimSteps, List.mem_cons, List.not_mem_nil, or_false] at hev
  rcases hev with rfl | rfl | rfl <;> exact id

/-- The `try` block from the answer of the dispatcher to the gates. -/
def afterDispatch (c : ExecutionContext) (result : ExecutionResult) : Proc ExecutionResult := do
  let outcomes ← perform (.joinHeartbeat c)
  persistEvents c result.events
  raiseUnless (heartbeatErrors outcomes).isEmpty
    (.runtimeError "Heartbeat failed; execution outcome requires review")
  raiseUnless (gatesPassed c.agent result)
    (.executionBlocked "Required test and review gates are incomplete")
  pure result

/-- The dispatch comes after the move to `In Progress`, and only the heartbeats, the events and
the gates are left then. -/
theorem dispatchIssue_dispatch {m : Bool} {issue : Issue} {c : ExecutionContext}
    {tr : List CallEvent} {o : Except Exc ExecutionResult}
    (h : Returns (dispatchIssue m issue c).run tr o) : (∀ ev ∈ tr, ¬ IsDispatch ev) ∨
    ∃ r tail, tr = movedTo m issue.identifier "In Progress" ++
      ⟨.event c "agent.dispatched" ∅, .ok ()⟩ :: ⟨.dispatch c, r⟩ :: tail ∧
      ((∃ e, r = .error e ∧ tail = [] ∧ o = .error e) ∨
        ∃ result, r = .ok result ∧ Returns (afterDispatch c result).run tail o) := by
  unfold dispatchIssue at h
  rcases returns_run_bind.1 h with ⟨_, tr₁, _, rfl, hmove, h₁⟩ | ⟨e, hmove, -⟩
  swap
  · left
    rcases returns_when_move hmove with ⟨-, ho⟩ | ⟨e', -, rfl, -⟩
    · cases ho
    · intro ev hev
      rw [List.mem_singleton.1 hev]
      exact id
  obtain rfl : _ = movedTo m issue.identifier "In Progress" := by
    rcases returns_when_move hmove with ⟨htr, -⟩ | ⟨e, -, -, ho⟩
    · exact htr
    · cases ho
  rcases returns_run_bind.1 h₁ with ⟨_, tr₂, payload, rfl, hval, h₂⟩ | ⟨e, hval, -⟩
  swap
  · cases (returns_settle.1 hval).2
  obtain ⟨rfl, hp⟩ := returns_settle.1 hval
  rw [validate_dispatched] at hp
  cases hp
  rcases returns_run_bind.1 h₂ with ⟨_, tr₃, _, rfl, hev, h₃⟩ | ⟨e, hev, -⟩
  swap
  · left
    obtain rfl := returns_event.1 hev
    intro ev hmem
    simp only [List.nil_append, List.mem_append, List.mem_singleton] at hmem
    rcases hmem with hmem | rfl
    · exact not_dispatch_movedTo ev hmem
    · exact id
  obtain rfl := returns_event.1 hev
  right
  rcases returns_run_bind.1 h₃ with ⟨_, tail, result, rfl, hdisp, h₄⟩ | ⟨e, hdisp, ho⟩
  · obtain rfl := returns_dispatch.1 hdisp
    exact ⟨.ok result, tail, by simp, Or.inr ⟨result, rfl, h₄⟩⟩
  · obtain rfl := returns_dispatch.1 hdisp
    exact ⟨.error e, [], by simp, Or.inl ⟨e, rfl, rfl, ho⟩⟩

theorem afterDispatch_only (c : ExecutionContext) (result : ExecutionResult) :
    Only (fun ev => ¬ IsDispatch ev) (afterDispatch c result).run := by
  unfold afterDispatch
  refine only_run_bind (fun r => ⟨id, trivial⟩) fun outcomes => ?_
  refine only_run_bind (persistEvents_only (fun _ _ _ => id) _) fun _ => ?_
  refine only_run_bind (raiseUnless_only _ _) fun _ => ?_
  exact only_run_bind (raiseUnless_only _ _) fun _ => trivial

/-- **The dispatch of an execution**: there is none, or one, after the claim and the move. -/
theorem execute_dispatch {rt : AgentRuntime} {m : Bool} {issue : Issue} {tr : List CallEvent}
    {o : Except Exc ExecutionContext} (h : Returns (rt.execute m issue).run tr o) :
    (∀ ev ∈ tr, ¬ IsDispatch ev) ∨ ∃ before c r tail, tr = before ++ ⟨.dispatch c, r⟩ :: tail ∧
      c.linearIssueId = issue.identifier ∧
      (∃ ttl, (⟨.claim c ttl, .ok ()⟩ : CallEvent) ∈ before) ∧
      (∀ ev ∈ movedTo m issue.identifier "In Progress", ev ∈ before) ∧
      (∀ ev ∈ before, ¬ IsDispatch ev) ∧ ∀ ev ∈ tail, ¬ IsDispatch ev := by
  rcases execute_returns h with ⟨hrefused, -⟩ | ⟨c, drawn, body, rest, rfl, hcontext, hends⟩
  · left
    intro ev hev hdisp
    obtain ⟨c, r, rfl⟩ := exists_of_isDispatch hdisp
    exact hrefused _ hev
  obtain ⟨⟨o', hbody⟩, hfail⟩ := blocks_of_ends hends
  have hrest : ∀ ev ∈ rest, ¬ IsDispatch ev := by
    rcases hfail with rfl | ⟨e, hf⟩
    · exact List.forall_mem_nil _
    · exact failTrace_forall hf (fun _ => not_dispatch_of_cleanup) (fun _ => id) fun _ _ _ _ => id
  obtain ⟨work, tail, _, rfl, hdisp, htail⟩ := bodyTrace_split hbody
  have htail' : ∀ ev ∈ tail ++ rest, ¬ IsDispatch ev := by
    intro ev hev
    rcases List.mem_append.1 hev with hev | hev
    · obtain ⟨result, -, hev⟩ := htail ev hev
      rcases hev with ⟨r, rfl⟩ | ⟨r, rfl⟩ <;> exact id
    · exact hrest ev hev
  rcases dispatchIssue_dispatch hdisp with hnone | ⟨r, left, rfl, hafter⟩
  · left
    intro ev hev
    rw [List.append_assoc, List.append_assoc] at hev
    rcases List.mem_append.1 hev with hev | hev
    · exact not_dispatch_claimSteps ev hev
    · rcases List.mem_append.1 hev with hev | hev
      · exact hnone ev hev
      · exact htail' ev hev
  · right
    have hleft : ∀ ev ∈ left, ¬ IsDispatch ev := by
      rcases hafter with ⟨e, -, rfl, -⟩ | ⟨result, -, hafter⟩
      · exact List.forall_mem_nil _
      · exact (afterDispatch_only c result).mem hafter
    refine ⟨claimSteps rt c drawn ++ movedTo m issue.identifier "In Progress" ++
      [⟨.event c "agent.dispatched" ∅, .ok ()⟩], c, r, left ++ (tail ++ rest),
      by simp, hcontext.2.1, ⟨rt.ttlSeconds, by simp [claimSteps]⟩,
      fun ev hev => by simp [hev], fun ev hev => ?_, fun ev hev => ?_⟩
    · rcases List.mem_append.1 hev with hev | hev
      · rcases List.mem_append.1 hev with hev | hev
        · exact not_dispatch_claimSteps ev hev
        · exact not_dispatch_movedTo ev hev
      · rw [List.mem_singleton.1 hev]
        exact id
    · rcases List.mem_append.1 hev with hev | hev
      · exact hleft ev hev
      · exact htail' ev hev

/-- All dispatches of an execution are one. -/
theorem dispatch_unique {rt : AgentRuntime} {m : Bool} {issue : Issue} {tr : List CallEvent}
    {q : Prog Call Call.Resp (Except Exc ExecutionContext)}
    (h : Reach (rt.execute m issue).run tr q) {ev ev' : CallEvent} (hev : ev ∈ tr)
    (hev' : ev' ∈ tr) (hd : IsDispatch ev) (hd' : IsDispatch ev') : ev = ev' := by
  obtain ⟨later, o, hreturns⟩ := h.extend
  rcases execute_dispatch hreturns with
    hnone | ⟨before, c, r, tail, htr, -, -, -, hbefore, htail⟩
  · exact absurd hd (hnone ev (List.mem_append_left _ hev))
  have hone : ∀ x ∈ tr, IsDispatch x → x = ⟨.dispatch c, r⟩ := by
    intro x hx hdx
    have hmem : x ∈ before ++ ⟨.dispatch c, r⟩ :: tail := htr ▸ List.mem_append_left later hx
    rcases List.mem_append.1 hmem with hmem | hmem
    · exact absurd hdx (hbefore x hmem)
    · rcases List.mem_cons.1 hmem with rfl | hmem
      · rfl
      · exact absurd hdx (htail x hmem)
  rw [hone ev hev hd, hone ev' hev' hd']

/-! ## The way to a completed run -/

/-- A step on the way to a completed run. -/
def Completes : CallEvent → Prop
  | ⟨.finish _ s _, _⟩ => s = "completed"
  | ⟨.moveStatus _ s, _⟩ => s = "In Review"
  | _ => False

theorem not_completes_move {i s : String} {r : Except Exc Unit} (hs : s ≠ "In Review") :
    ¬ Completes ⟨.moveStatus i s, r⟩ := hs

theorem not_completes_finish {c : ExecutionContext} {s : String} {fields : Mapping String}
    {r : Except Exc Unit} (hs : s ≠ "completed") : ¬ Completes ⟨.finish c s fields, r⟩ := hs

theorem not_completes_of_work {i : String} {c : ExecutionContext} {ev : CallEvent}
    (h : IsWork i c ev.1) : ¬ Completes ev := by
  obtain ⟨call, r⟩ := ev
  cases call
  case moveStatus j s =>
    obtain ⟨-, rfl⟩ : j = i ∧ s = "In Progress" := h
    exact not_completes_move (by decide)
  all_goals first | exact id | exact h.elim

theorem not_completes_of_cleanup {c : ExecutionContext} {ev : CallEvent}
    (h : IsCleanup c ev.1) : ¬ Completes ev := by
  obtain ⟨call, r⟩ := ev
  cases call <;> first | exact id | exact h.elim

/-- The `except` block completes nothing. -/
theorem failTrace_not_completes {m : Bool} {i : String} {c : ExecutionContext} {exc : Exc}
    {tr : List CallEvent} {o : Except Exc ExecutionContext} (h : FailTrace m i c exc tr o) :
    ∀ ev ∈ tr, ¬ Completes ev :=
  failTrace_forall h (fun _ => not_completes_of_cleanup)
    (fun _ => not_completes_move (by decide)) fun _ _ _ hs =>
      not_completes_finish (by rcases hs with rfl | rfl <;> decide)

/-- **An execution on the way to a completed run has got past the gates**, and goes on with
what the dispatcher returned. -/
theorem gates_of_completes {rt : AgentRuntime} {m : Bool} {issue : Issue} {tr : List CallEvent}
    {q : Prog Call Call.Resp (Except Exc ExecutionContext)}
    (h : Reach (rt.execute m issue).run tr q) {ev : CallEvent} (hev : ev ∈ tr)
    (hcompletes : Completes ev) :
    ∃ c drawn work tail result, tr = claimSteps rt c drawn ++ (work ++ tail) ∧
      Returns (dispatchIssue m issue c).run work (.ok result) ∧
      (∀ ev' ∈ work ++ tail, IsOwn issue.identifier c ev'.1) ∧
      ((∃ r, ev = ⟨.moveStatus issue.identifier "In Review", r⟩) ∨
        ∃ r, ev = ⟨.finish c "completed" result.fields, r⟩) := by
  obtain ⟨later, o, hreturns⟩ := h.extend
  rcases execute_returns hreturns with ⟨hrefused, -⟩ | ⟨c, drawn, body, rest, htr, -, hends⟩
  · have hno := hrefused ev (List.mem_append_left _ hev)
    obtain ⟨call, r⟩ := ev
    cases call <;> first | exact hcompletes.elim | exact hno.elim
  have hown := claimed_own hends
  obtain ⟨⟨o', hbody⟩, hrest⟩ := blocks_of_ends hends
  obtain ⟨work, tail, o'', rfl, hdisp, htail⟩ := bodyTrace_split hbody
  have hsteps : ∀ ev' ∈ claimSteps rt c drawn ++ work, ¬ Completes ev' := by
    intro ev' hev'
    rcases List.mem_append.1 hev' with hev' | hev'
    · simp only [claimSteps, List.mem_cons, List.not_mem_nil, or_false] at hev'
      rcases hev' with rfl | rfl | rfl <;> exact id
    · exact not_completes_of_work (dispatchIssue_work hdisp ev' hev')
  have hcut : tr ++ later = (claimSteps rt c drawn ++ work) ++ (tail ++ rest) := by
    rw [htr]
    simp
  -- `ev` is none of the steps up to the gates, so the trace contains them all.
  rcases List.append_eq_append_iff.1 hcut with ⟨left, hleft, -⟩ | ⟨more, rfl, hmore⟩
  · exact absurd hcompletes (hsteps ev (hleft ▸ List.mem_append_left left hev))
  have hev' : ev ∈ tail := by
    rcases List.mem_append.1 hev with hev | hev
    · exact absurd hcompletes (hsteps ev hev)
    · have hmem : ev ∈ tail ++ rest := hmore ▸ List.mem_append_left later hev
      rcases List.mem_append.1 hmem with hmem | hmem
      · exact hmem
      · rcases hrest with rfl | ⟨e, hfail⟩
        · cases hmem
        · exact absurd hcompletes (failTrace_not_completes hfail ev hmem)
  obtain ⟨result, rfl, hshape⟩ := htail ev hev'
  refine ⟨c, drawn, work, more, result, List.append_assoc _ _ _, hdisp, fun ev' hmem => ?_, hshape⟩
  refine hown ev' ?_
  rw [List.append_assoc, hmore, ← List.append_assoc]
  exact List.mem_append_left _ hmem

/-- An execution on the way to a completed run has joined its heartbeats before, and none of
them had failed. -/
theorem join_of_completes {rt : AgentRuntime} {m : Bool} {issue : Issue}
    {pre post : List CallEvent} {q : Prog Call Call.Resp (Except Exc ExecutionContext)}
    {c : ExecutionContext} {ttl : Int}
    (h : Reach (rt.execute m issue).run (pre ++ ⟨.claim c ttl, .ok ()⟩ :: post) q)
    {ev : CallEvent} (hev : ev ∈ post) (hcompletes : Completes ev) :
    ∃ outcomes, (⟨.joinHeartbeat c, outcomes⟩ : CallEvent) ∈ post ∧
      heartbeatErrors outcomes = [] := by
  have hmem : ev ∈ pre ++ ⟨.claim c ttl, .ok ()⟩ :: post := by simp [hev]
  obtain ⟨c', drawn, work, tail, result, htr, hdisp, hown, -⟩ :=
    gates_of_completes h hmem hcompletes
  obtain ⟨-, rfl, -, rfl⟩ := claim_second hown htr.symm
  obtain ⟨outcomes, posts, rfl, -, hclean, -⟩ := dispatchIssue_ok hdisp
  exact ⟨outcomes, by simp, hclean⟩

/-- A completed run is finished with the result of its dispatch. -/
theorem completed_result {rt : AgentRuntime} {m : Bool} {issue : Issue} {tr : List CallEvent}
    {q : Prog Call Call.Resp (Except Exc ExecutionContext)}
    (h : Reach (rt.execute m issue).run tr q) {c : ExecutionContext} {fields : Mapping String}
    {r : Except Exc Unit} (hev : (⟨.finish c "completed" fields, r⟩ : CallEvent) ∈ tr) :
    ∃ c' result, (⟨.dispatch c', .ok result⟩ : CallEvent) ∈ tr ∧ fields = result.fields := by
  obtain ⟨c', drawn, work, tail, result, rfl, hdisp, -, hshape⟩ := gates_of_completes h hev rfl
  obtain ⟨outcomes, posts, rfl, -⟩ := dispatchIssue_ok hdisp
  refine ⟨c', result, by simp, ?_⟩
  rcases hshape with ⟨r', heq⟩ | ⟨r', heq⟩
  · cases heq
  · cases heq
    rfl

/-! ## What a claim and a finish come with -/

/-- A run that the call finishes ends `failed` or `blocked`, with the name of an error. -/
def FinishesWithError : CallEvent → Prop
  | ⟨.finish _ s fields, _⟩ => (s = "failed" ∨ s = "blocked") ∧ ∃ name, fields = errorFields name
  | _ => True

/-- The finishes of an execution: with what the dispatcher returned, or with an error. -/
theorem finish_of_execute {rt : AgentRuntime} {m : Bool} {issue : Issue} {tr : List CallEvent}
    {q : Prog Call Call.Resp (Except Exc ExecutionContext)}
    (h : Reach (rt.execute m issue).run tr q) {c : ExecutionContext} {s : String}
    {fields : Mapping String} {r : Except Exc Unit}
    (hev : (⟨.finish c s fields, r⟩ : CallEvent) ∈ tr) :
    s = "completed" ∨ (s = "failed" ∨ s = "blocked") ∧ ∃ name, fields = errorFields name := by
  obtain ⟨later, o, hreturns⟩ := h.extend
  have hmem := List.mem_append_left later hev
  rcases execute_returns hreturns with ⟨hrefused, -⟩ | ⟨c', drawn, body, rest, htr, -, hends⟩
  · exact (hrefused _ hmem).elim
  obtain ⟨⟨o', hbody⟩, hrest⟩ := blocks_of_ends hends
  obtain ⟨work, tail, o'', rfl, hdisp, htail⟩ := bodyTrace_split hbody
  rw [htr, List.mem_append, List.mem_append, List.mem_append] at hmem
  rcases hmem with (hmem | hmem | hmem) | hmem
  · simp only [claimSteps, List.mem_cons, List.not_mem_nil, or_false] at hmem
    rcases hmem with heq | heq | heq <;> cases heq
  · exact (dispatchIssue_work hdisp _ hmem).elim
  · obtain ⟨result, -, ⟨r', heq⟩ | ⟨r', heq⟩⟩ := htail _ hmem <;> cases heq
    exact Or.inl rfl
  · rcases hrest with rfl | ⟨e, hfail⟩
    · cases hmem
    · refine Or.inr (failTrace_forall (P := FinishesWithError) hfail ?_ (fun _ => trivial)
        (fun s name r hs => ⟨hs, name, rfl⟩) _ hmem)
      intro ev hclean
      obtain ⟨call, r'⟩ := ev
      cases call <;> first | exact trivial | exact hclean.elim

/-- A claim is for a context of this issue. -/
def ClaimsFor (issue : Issue) : CallEvent → Prop
  | ⟨.claim c _, _⟩ => IsContextOf issue c
  | _ => True

theorem claimsFor_of_work {issue : Issue} {i : String} {c : ExecutionContext} {ev : CallEvent}
    (h : IsWork i c ev.1) : ClaimsFor issue ev := by
  obtain ⟨call, r⟩ := ev
  cases call <;> first | exact trivial | exact h.elim

theorem claimsFor_of_cleanup {issue : Issue} {c : ExecutionContext} {ev : CallEvent}
    (h : IsCleanup c ev.1) : ClaimsFor issue ev := by
  obtain ⟨call, r⟩ := ev
  cases call <;> first | exact trivial | exact h.elim

/-- An execution claims for the context it built from its issue, whatever comes of it. -/
theorem claim_of_execute (rt : AgentRuntime) (m : Bool) (issue : Issue) :
    Only (ClaimsFor issue) (rt.execute m issue).run := by
  unfold AgentRuntime.execute
  refine only_settle_bind fun fields hclass => ?_
  obtain ⟨agent, risk, mode, environment⟩ := fields
  refine only_run_bind (fun r => ⟨trivial, trivial⟩) fun drawn => ?_
  refine only_run_bind ?_ fun _ => ?_
  · unfold claimIssue
    refine only_run_tryCatch (fun r => ⟨⟨hclass, rfl, _, _, rfl⟩, trivial⟩) fun e => ?_
    exact only_run_bind (when_only fun r => ⟨trivial, trivial⟩) fun _ => trivial
  · refine only_run_bind (fun r => ⟨trivial, trivial⟩) fun _ => only_run_tryCatch ?_ fun exc => ?_
    · exact executeBody_only (fun _ => claimsFor_of_work) (fun _ => trivial) fun _ _ _ => trivial
    · exact executeFailed_only exc (fun _ => claimsFor_of_cleanup) (fun _ => trivial)
        fun _ _ _ => trivial

/-- An execution of an issue it accepts draws a run id and claims. Where the store raises, the
execution raises the same, or what the report of a conflict raises. -/
theorem execute_accepted {rt : AgentRuntime} {m : Bool} {issue : Issue} {tr : List CallEvent}
    {o : Except Exc ExecutionContext} (h : Returns (rt.execute m issue).run tr o)
    (hclass : ∃ fields, classifyIssue issue = .ok fields) :
    ∃ c drawn r rest, tr = ⟨.entropy, drawn⟩ :: ⟨.claim c rt.ttlSeconds, r⟩ :: rest ∧
      c.linearIssueId = issue.identifier ∧ c.runId = newRunId drawn.1 drawn.2 ∧
      ∀ e, r = .error e → (∀ ev ∈ rest, ∃ r', ev = ⟨.lockRejected c "RunConflict", r'⟩) ∧
        (o = .error e ∨ e.isConflict = true ∧
          ∃ e', (⟨.lockRejected c "RunConflict", .error e'⟩ : CallEvent) ∈ rest) := by
  obtain ⟨fields, hclass⟩ := hclass
  unfold AgentRuntime.execute at h
  rw [hclass] at h
  rcases returns_run_bind.1 h with ⟨_, tr, _, rfl, hfields, h₀⟩ | ⟨e, hfields, -⟩
  swap
  · cases (returns_settle.1 hfields).2
  obtain ⟨rfl, -⟩ := returns_settle.1 hfields
  rw [List.nil_append]
  rcases returns_run_bind.1 h₀ with ⟨tr₁, tr₂, drawn, rfl, hdraw, h₁⟩ | ⟨e, hdraw, -⟩
  swap
  · obtain ⟨_, -, ho⟩ := returns_perform.1 hdraw
    cases ho
  obtain ⟨_, rfl, ho⟩ := returns_perform.1 hdraw
  cases ho
  obtain ⟨millis, random⟩ := drawn
  rcases returns_run_bind.1 h₁ with ⟨tr₃, tr₄, _, rfl, hclaim, h₂⟩ | ⟨e, hclaim, rfl⟩
  · obtain ⟨r, rest, rfl, ⟨rfl, -, -⟩ | ⟨_, -, -, ho | ⟨-, _, ho, -⟩⟩⟩ := claimIssue_steps hclaim
    · exact ⟨_, (millis, random), _, rest ++ tr₄, rfl, rfl, rfl, nofun⟩
    · cases ho
    · cases ho
  · obtain ⟨r, rest, rfl, ⟨-, -, ho⟩ | ⟨e', rfl, hrest, hraised⟩⟩ := claimIssue_steps hclaim
    · cases ho
    · refine ⟨_, (millis, random), _, rest, rfl, rfl, rfl, fun e₁ he₁ => ?_⟩
      cases he₁
      refine ⟨hrest, ?_⟩
      rcases hraised with ho | ⟨hconflict, e₂, -, hmem⟩
      · cases ho
        exact Or.inl rfl
      · exact Or.inr ⟨hconflict, e₂, hmem⟩

end HermesRuntime
