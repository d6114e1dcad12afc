import HermesRuntime.PassOutcome
import HermesRuntime.TickWrites

/-!
# What the exit status of a tick says

`main` ends with 0 where its pass returns: a conflict or a block has ended the turn of an issue,
and nothing else has been raised. What Linear raises is neither of them, and of what the store
raises only the answer 409 is. So a tick that ends with 0 has left no run of its own open, except
where the store has answered 409 to its finish; and it has asked for a run of every issue the
guard let through.

* `execute_settles` — how an execution with a granted claim ends.
* `resultsIn_granted`, `resultsIn_asked` — a turn with a result.
* `returns_main` — the whole runs of `main`.
* `closed_of_exit_zero`, `asked_of_exit_zero` — the runs that end with 0.
-/

namespace HermesRuntime

open Effects Prog Proc

variable {files : Files} {environ : Mapping String} {settings : TickSettings} {fuel : ℕ}

/-! ## Executions -/

/-- What an execution with a granted claim comes to: a finish has gone through, or the exception
is that of a finish or of the move to `Blocked`. -/
def Settles (i : String) (c : ExecutionContext) (tr : List CallEvent)
    (o : Except Exc ExecutionContext) : Prop :=
  (∃ status fields, (⟨.finish c status fields, .ok ()⟩ : CallEvent) ∈ tr) ∨ ∃ e, o = .error e ∧
    ((∃ status fields, (⟨.finish c status fields, .error e⟩ : CallEvent) ∈ tr) ∨
      (⟨.moveStatus i "Blocked", .error e⟩ : CallEvent) ∈ tr)

theorem Settles.mono {i : String} {c : ExecutionContext} {tr tr' : List CallEvent}
    {o : Except Exc ExecutionContext} (h : Settles i c tr o) (hsub : tr ⊆ tr') :
    Settles i c tr' o := by
  rcases h with ⟨status, fields, hmem⟩ | ⟨e, ho, ⟨status, fields, hmem⟩ | hmem⟩
  · exact Or.inl ⟨status, fields, hsub hmem⟩
  · exact Or.inr ⟨e, ho, Or.inl ⟨status, fields, hsub hmem⟩⟩
  · exact Or.inr ⟨e, ho, Or.inr (hsub hmem)⟩

theorem failIssue_settles {m : Bool} {issue : Issue} {c : ExecutionContext} {exc : Exc}
    {persisted : Except Exc Unit} {tr : List CallEvent} {o : Except Exc ExecutionContext}
    (h : Returns (failIssue m issue c exc persisted).run tr o) :
    Settles issue.identifier c tr o := by
  unfold failIssue at h
  rcases returns_run_bind.1 h with ⟨moved, rest, _, rfl, -, h₁⟩ | ⟨e, hmove, rfl⟩
  · rcases returns_run_bind.1 h₁ with ⟨fin, rest', _, rfl, hfin, -⟩ | ⟨e, hfin, rfl⟩
    · obtain rfl := returns_finish.1 hfin
      exact Or.inl ⟨_, _, List.mem_append_right _ List.mem_cons_self⟩
    · obtain rfl := returns_finish.1 hfin
      exact Or.inr ⟨e, rfl, Or.inl ⟨_, _, List.mem_append_right _ List.mem_cons_self⟩⟩
  · rcases returns_when_move hmove with ⟨-, ho⟩ | ⟨e', -, rfl, ho⟩
    · cases ho
    · cases ho
      exact Or.inr ⟨e, rfl, Or.inr (List.mem_singleton_self _)⟩

theorem executeFailed_settles {m : Bool} {issue : Issue} {c : ExecutionContext} {exc : Exc}
    {tr : List CallEvent} {o : Except Exc ExecutionContext}
    (h : Returns (executeFailed m issue c exc).run tr o) : Settles issue.identifier c tr o := by
  unfold executeFailed at h
  rcases returns_run_bind.1 h with ⟨tr₁, tr₂, _, rfl, hjoin, h₁⟩ | ⟨e, hjoin, rfl⟩
  swap
  · obtain ⟨_, -, ho⟩ := returns_perform.1 hjoin
    cases ho
  rcases returns_run_bind.1 h₁ with ⟨tr₃, tr₄, persisted, rfl, -, h₂⟩ | ⟨e, hpersist, rfl⟩
  · exact (failIssue_settles h₂).mono fun ev hev => by simp [hev]
  · cases persistCarried_returns hpersist

/-- **How an execution with a granted claim ends.** -/
theorem execute_settles {rt : AgentRuntime} {m : Bool} {issue : Issue} {tr : List CallEvent}
    {o : Except Exc ExecutionContext} (h : Returns (rt.execute m issue).run tr o)
    {c : ExecutionContext} {ttl : Int} (hclaim : (⟨.claim c ttl, .ok ()⟩ : CallEvent) ∈ tr) :
    Settles issue.identifier c tr o := by
  rcases execute_claims h with ⟨hrefused, -⟩ | ⟨c', drawn, own, rfl, -, hown⟩
  · exact (hrefused _ hclaim).elim
  have hfirst : (⟨.claim c' rt.ttlSeconds, .ok ()⟩ : CallEvent) ∈
      claimSteps rt c' drawn ++ own := by simp [claimSteps]
  obtain rfl : c' = c := claim_unique h hclaim hfirst
  have hsettles : Settles issue.identifier c' own o := by
    rcases returns_run_tryCatch.1 hown with ⟨a, hbody, rfl⟩ | ⟨body, rest, e, rfl, -, hfail⟩
    · generalize ho : (Except.ok a : Except Exc ExecutionContext) = o at hbody
      cases executeBody_returns hbody with
      | finished result r hdisp =>
          cases r with
          | ok u => exact Or.inl ⟨"completed", result.fields, by simp⟩
          | error e => cases ho
      | _ => cases ho
    · exact (executeFailed_settles hfail).mono (List.subset_append_right _ _)
  exact hsettles.mono (List.subset_append_right _ _)

/-! ## Turns with a result -/

/-- The exceptions that end the turn of an issue, and not the pass. -/
def Exc.Caught (e : Exc) : Prop := e.isConflict = true ∨ e.isBlocked = true

/-- The execution of a turn with a result: it returns, or what it raises is caught. -/
theorem exec_of_resultsIn {orch : RuntimeOrchestrator} {issue : Issue} {tr : List CallEvent}
    {result : OrchestratorRunResult} (h : ResultsIn orch issue tr result) : ∃ exec o,
      Returns (orch.runtime.execute orch.hasMove issue).run exec o ∧ exec ⊆ tr ∧
        (∀ ev ∈ tr, ∀ c ttl, ev.1 = .claim c ttl → ev ∈ exec) ∧
        ∀ e, o = .error e → e.Caught := by
  have hreport : ∀ {i reason : String}, ∀ ev ∈ blockRecorded orch.records i reason,
      ∀ c ttl, ev.1 ≠ .claim c ttl := by
    intro i reason ev hev c ttl hclaim
    unfold blockRecorded at hev
    split at hev
    · rw [List.mem_singleton.1 hev] at hclaim
      cases hclaim
    · cases hev
  cases h with
  | @completed exec c b hexec =>
      refine ⟨exec, _, hexec, List.subset_cons_self _ _, fun ev hev c ttl hclaim => ?_, ?_⟩
      · rcases List.mem_cons.1 hev with rfl | hev
        · cases hclaim
        · exact hev
      · intro e ho
        cases ho
  | @conflict exec e b hexec hconflict =>
      refine ⟨exec, _, hexec, fun ev hev => by simp [hev], fun ev hev c ttl hclaim => ?_, ?_⟩
      · rcases List.mem_cons.1 hev with rfl | hev
        · cases hclaim
        · exact (List.mem_append.1 hev).resolve_right fun hev => hreport ev hev c ttl hclaim
      · intro e' ho
        cases ho
        exact Or.inl hconflict
  | @blocked exec e b hexec hconflict hblocked =>
      refine ⟨exec, _, hexec, fun ev hev => by simp [hev], fun ev hev c ttl hclaim => ?_, ?_⟩
      · rcases List.mem_cons.1 hev with rfl | hev
        · cases hclaim
        · exact (List.mem_append.1 hev).resolve_right fun hev => hreport ev hev c ttl hclaim
      · intro e' ho
        cases ho
        exact Or.inr hblocked

/-- A run that is open after a turn with a result has been left so by what a finish or the move to
`Blocked` raised. -/
theorem resultsIn_granted {orch : RuntimeOrchestrator} {issue : Issue} {tr : List CallEvent}
    {result : OrchestratorRunResult} (h : ResultsIn orch issue tr result) {c : ExecutionContext}
    {ttl : Int} (hclaim : (⟨.claim c ttl, .ok ()⟩ : CallEvent) ∈ tr) :
    (∃ status fields, (⟨.finish c status fields, .ok ()⟩ : CallEvent) ∈ tr) ∨
      ∃ e, e.Caught ∧ ((∃ status fields, (⟨.finish c status fields, .error e⟩ : CallEvent) ∈ tr) ∨
        (⟨.moveStatus issue.identifier "Blocked", .error e⟩ : CallEvent) ∈ tr) := by
  obtain ⟨exec, o, hexec, hsub, hclaims, hcaught⟩ := exec_of_resultsIn h
  rcases (execute_settles hexec (hclaims _ hclaim c ttl rfl)).mono hsub with hfin | ⟨e, ho, hraised⟩
  · exact Or.inl hfin
  · exact Or.inr ⟨e, hcaught e ho, hraised⟩

/-- The only exception of a request to the store that ends a turn is a conflict: the answer 409. -/
theorem eq_of_caught {f : Failure} (h : f.exc.Caught) : f = .http 409 := by
  rcases f with code | ⟨typeName, message⟩
  · by_cases hcode : code = 409
    · rw [hcode]
    · rcases h with h | h <;> simp [Failure.exc, hcode, Exc.runtimeError] at h
  · rcases h with h | h <;> cases h

/-- What the answer to a request that has to be `True` raises. -/
theorem orRaise_error {exc e : Exc} {r : Except Failure Bool}
    (h : SupabaseStore.orRaise exc (TickProc.answerOf r) = .error e) (hcaught : e.Caught) :
    (r = .ok false ∧ e = exc) ∨ r = .error (.http 409) := by
  rcases r with f | _ | _
  · cases h
    exact Or.inr (congrArg Except.error (eq_of_caught hcaught))
  · cases h
    exact Or.inl ⟨rfl, rfl⟩
  · cases h

/-- What Linear raises ends the pass. -/
theorem move_not_caught {t : TickScope} {i status : String} {low : List TickEvent} {e : Exc}
    (h : Returns (carryOut t fuel (.moveStatus i status)) low (.error e)) : ¬ e.Caught := by
  obtain ⟨tr, hmove, hc⟩ := returns_handle.1 h
  have hcall : ∃ target stateId, (⟨.setState target stateId, .error e⟩ : LinearEvent) ∈ tr := by
    unfold moveIssueStatus at hmove
    cases htarget : t.issuesById.lookup i with
    | none =>
        rw [htarget] at hmove
        cases (returns_pure.1 hmove).2
    | some target =>
        rw [htarget] at hmove
        cases hstate : t.states.lookup status with
        | none =>
            simp only [hstate] at hmove
            cases (returns_pure.1 hmove).2
        | some stateId =>
            simp only [hstate] at hmove
            obtain rfl := returns_setState.1 hmove
            exact ⟨_, _, List.mem_singleton_self _⟩
  obtain ⟨target, stateId, hmem⟩ := hcall
  obtain ⟨before, own, after, -, hown⟩ := hc.own hmem
  have hplain : e.Plain := by
    rcases returns_run_bind.1 hown with ⟨_, _, _, -, -, hpure⟩ | ⟨e', hset, ho⟩
    · cases (returns_pure.1 hpure).2
    · cases ho
      obtain ⟨reply, _, -, hret⟩ := returns_call.1 hset
      exact plain_of_setState (returns_ret.1 hret).2.symm
  rintro (hconflict | hblocked)
  · rw [hplain.2.1] at hconflict
    cases hconflict
  · rw [hplain.1] at hblocked
    cases hblocked

/-- The finish of a run that has been granted, in a pass whose turns come to a result. -/
theorem finish_carried {orch : RuntimeOrchestrator} {t : TickScope} {issue : Issue}
    {turn tr : List CallEvent} {result : OrchestratorRunResult} {low : List TickEvent}
    (h : ResultsIn orch issue turn result) (hsub : turn ⊆ tr)
    (hc : Carries (carryOut t fuel) tr low) {c : ExecutionContext} {ttl : Int}
    (hclaim : (⟨.claim c ttl, .ok ()⟩ : CallEvent) ∈ turn) : ∃ status body r,
      (⟨.post (.finish c.runId c.linearIssueId status body), r⟩ : TickEvent) ∈ low ∧
        (r = .ok true ∨ r = .error (.http 409)) := by
  have hposted : ∀ {status : String} {fields : Mapping String} {o : Except Exc Unit},
      (⟨.finish c status fields, o⟩ : CallEvent) ∈ turn → ∃ r : Except Failure Bool,
        (⟨.post (.finish c.runId c.linearIssueId status (.object (jsonFields fields))), r⟩ :
          TickEvent) ∈ low ∧
        o = SupabaseStore.orRaise (.runtimeError "Run no longer owns the issue lock")
          (TickProc.answerOf r) := by
    intro status fields o hmem
    obtain ⟨before, own, after, rfl, hown⟩ := hc.own (hsub hmem)
    obtain ⟨r, rest, rfl, hret⟩ := returns_call.1 hown
    exact ⟨r, by simp, (returns_ret.1 hret).2⟩
  rcases resultsIn_granted h hclaim with
    ⟨status, fields, hmem⟩ | ⟨e, hcaught, ⟨status, fields, hmem⟩ | hmem⟩
  · obtain ⟨r, hlow, ho⟩ := hposted hmem
    refine ⟨status, _, r, hlow, Or.inl ?_⟩
    rcases r with f | _ | _
    · cases ho
    · cases ho
    · rfl
  · obtain ⟨r, hlow, ho⟩ := hposted hmem
    refine ⟨status, _, r, hlow, Or.inr ?_⟩
    rcases orRaise_error ho.symm hcaught with ⟨-, rfl⟩ | hr
    · rcases hcaught with h | h <;> cases h
    · exact hr
  · obtain ⟨before, own, after, rfl, hown⟩ := hc.own (hsub hmem)
    exact absurd hcaught (move_not_caught hown)

/-! ## Whole ticks -/

/-- The set-up of a tick has made one query, or none. -/
theorem tickScope_calls {tr : List TickEvent} {o : Except Exc TickScope}
    (h : Returns (tickScope files environ settings).run tr o) :
    tr = [] ∨ ∃ reply, tr = [⟨.queryTodo, reply⟩] := by
  unfold tickScope at h
  rcases TickProc.returns_settle_bind h with ⟨_, htr, -⟩ | ⟨environ', -, h₁⟩
  · exact Or.inl htr
  rcases TickProc.returns_settle_bind h₁ with ⟨_, htr, -⟩ | ⟨key, -, h₂⟩
  · exact Or.inl htr
  right
  rcases returns_run_bind.1 h₂ with ⟨tr₁, tr₂, nodes, rfl, hquery, h₃⟩ | ⟨e, hquery, -⟩
  · obtain ⟨reply, rfl, -⟩ := TickProc.returns_queryTodo hquery
    refine ⟨reply, ?_⟩
    suffices htr : tr₂ = [] by rw [htr, List.append_nil]
    rcases TickProc.returns_settle_bind h₃ with ⟨_, htr, -⟩ | ⟨urlKey, -, h₄⟩
    · exact htr
    rcases TickProc.returns_settle_bind h₄ with ⟨_, htr, -⟩ | ⟨_, -, h₅⟩
    · exact htr
    rcases TickProc.returns_settle_bind h₅ with ⟨_, htr, -⟩ | ⟨_, -, h₆⟩
    · exact htr
    rcases TickProc.returns_settle_bind h₆ with ⟨_, htr, -⟩ | ⟨_, -, h₇⟩
    · exact htr
    · exact (returns_pure.1 h₇).1
  · obtain ⟨reply, rfl, -⟩ := TickProc.returns_queryTodo hquery
    exact ⟨reply, rfl⟩

/-- The whole runs of `main`. -/
inductive MainRun (files : Files) (environ : Mapping String) (settings : TickSettings) (fuel : ℕ) :
    List TickEvent → Except Exc ℕ → Prop
  | missing {names : List String} (hmissing : missingRequired files environ = .ok names)
      (hne : names ≠ []) : MainRun files environ settings fuel [] (.ok 78)
  | raised {tr : List TickEvent} (e : Exc) (htr : tr = [] ∨ ∃ reply, tr = [⟨.queryTodo, reply⟩]) :
      MainRun files environ settings fuel tr (.error e)
  | ended {first : HttpReply (List LinearNode)} {nodes : List LinearNode} {t : TickScope}
      {own : List TickEvent} {o : Except Exc (List OrchestratorRunResult)}
      (hfirst : todoNodesOf first = .ok nodes) (hsetUp : SetUp files environ settings nodes t)
      (hpass : Returns (tickPass t fuel).run own o) :
      MainRun files environ settings fuel (⟨.queryTodo, first⟩ :: own)
        (.ok (if o.isOk then 0 else 1))

/-- **The whole runs of `main`**: the secrets are missing, or the set-up raises, or the pass
ends. -/
theorem returns_main {tr : List TickEvent} {o : Except Exc ℕ}
    (h : Returns (main files environ settings fuel).run tr o) :
    MainRun files environ settings fuel tr o := by
  unfold main at h
  rcases TickProc.returns_settle_bind h with ⟨e, rfl, rfl⟩ | ⟨names, hmissing, h₁⟩
  · exact .raised e (Or.inl rfl)
  by_cases hne : names ≠ []
  · rw [if_pos hne] at h₁
    obtain ⟨rfl, rfl⟩ := returns_pure.1 h₁
    exact .missing hmissing hne
  rw [if_neg hne] at h₁
  rw [not_not.1 hne] at hmissing
  rcases returns_run_bind.1 h₁ with ⟨tr₁, own, t, rfl, hscope, h₂⟩ | ⟨e, hscope, rfl⟩
  swap
  · exact .raised e (tickScope_calls hscope)
  obtain ⟨first, nodes, rfl, hfirst, hsetUp⟩ := returns_tickScope hmissing hscope
  rcases returns_run_tryCatch.1 h₂ with ⟨n, hbody, rfl⟩ | ⟨own, rest, e, rfl, hbody, hcatch⟩
  · obtain ⟨own, _, results, rfl, hpass, hpure⟩ := returns_run_bind_ok.1 hbody
    obtain ⟨rfl, ho⟩ := returns_pure.1 hpure
    cases ho
    rw [List.append_nil]
    exact .ended hfirst hsetUp hpass
  · obtain ⟨rfl, rfl⟩ := returns_pure.1 hcatch
    rcases returns_run_bind.1 hbody with ⟨_, _, _, -, -, hpure⟩ | ⟨e', hpass, -⟩
    · cases (returns_pure.1 hpure).2
    · rw [List.append_nil]
      exact .ended hfirst hsetUp hpass

/-! ## Ticks that end with 0 -/

theorem exists_of_forall₂ {α β : Type} {R : α → β → Prop} {xs : List α} {ys : List β}
    (h : List.Forall₂ R xs ys) {x : α} (hx : x ∈ xs) : ∃ y ∈ ys, R x y := by
  induction h with
  | nil => cases hx
  | @cons x' y' xs ys hxy _ ih =>
      rcases List.mem_cons.1 hx with rfl | hx
      · exact ⟨y', List.mem_cons_self, hxy⟩
      · obtain ⟨y, hy, hR⟩ := ih hx
        exact ⟨y, List.mem_cons_of_mem _ hy, hR⟩

/-- The turns of a pass that returns: each issue that is read and eligible has had one, and each
granted claim has been part of one. -/
theorem turns_of_runOnce {orch : RuntimeOrchestrator} {tr : List CallEvent}
    {results : List OrchestratorRunResult} (h : Returns orch.runOnce.run tr (.ok results)) :
    ∃ snapshots rest, tr = ⟨.readIssues, .ok snapshots⟩ :: rest ∧
      (∀ s ∈ snapshots, (select s).action = .eligible → ∃ turn result, turn ⊆ tr ∧
        ResultsIn orch s.issue turn result) ∧
      ∀ c ttl r, (⟨.claim c ttl, r⟩ : CallEvent) ∈ tr → ∃ issue turn result, turn ⊆ tr ∧
        (⟨.claim c ttl, r⟩ : CallEvent) ∈ turn ∧ ResultsIn orch issue turn result := by
  unfold RuntimeOrchestrator.runOnce at h
  obtain ⟨polled, calls, decisions, rfl, hpoll, hturns⟩ := returns_run_bind_ok.1 h
  rcases poll_returns hpoll with ⟨e, -, ho⟩ | ⟨snapshots, records, rfl, hrecords, hdecisions⟩
  · cases ho
  obtain rfl := hdecisions decisions rfl
  rcases processIssues_outcome hturns with ⟨turns, -, rfl, hresults⟩ | ⟨e, _, _, _, _, _, ho, -⟩
  swap
  · cases ho
  have hsub : ∀ turn ∈ turns, turn.1 ⊆
      ⟨.readIssues, .ok snapshots⟩ :: records ++ (turns.map Prod.fst).flatten := by
    intro turn hturn ev hev
    refine List.mem_append_right _ (List.mem_flatten.2 ⟨turn.1, ?_, hev⟩)
    exact List.mem_map_of_mem hturn
  refine ⟨snapshots, _, rfl, fun s hs heligible => ?_, fun c ttl r hmem => ?_⟩
  · have hd : select s ∈ decisionsOf snapshots := mem_decisionsOf.2 ⟨s, hs, rfl, heligible⟩
    obtain ⟨turn, hturn, hresult⟩ := exists_of_forall₂ hresults hd
    exact ⟨turn.1, turn.2, hsub turn hturn, select_issue s ▸ hresult⟩
  · rcases List.mem_append.1 hmem with hmem | hmem
    · rcases List.mem_cons.1 hmem with heq | hmem
      · cases heq
      · exact (hrecords _ hmem).elim
    · obtain ⟨calls, hcalls, hmem⟩ := List.mem_flatten.1 hmem
      obtain ⟨turn, hturn, rfl⟩ := List.mem_map.1 hcalls
      obtain ⟨d, -, hresult⟩ := exists_of_forall₂ hresults.flip hturn
      exact ⟨d.issue, turn.1, turn.2, hsub turn hturn, hmem, hresult⟩

/-- A whole tick that has ended with 0: its pass has returned. -/
theorem pass_of_exit_zero {tr : List TickEvent}
    (h : Returns (main files environ settings fuel).run tr (.ok 0)) :
    ∃ first nodes t own calls results, tr = ⟨.queryTodo, first⟩ :: own ∧
      SetUp files environ settings nodes t ∧ Carries (carryOut t fuel) calls own ∧
      Returns (mainOrchestrator t.runtime).runOnce.run calls (.ok results) := by
  generalize ho : (Except.ok 0 : Except Exc ℕ) = o at h
  rcases returns_main h with ⟨-, -⟩ | ⟨e, -⟩ | @⟨first, nodes, t, own, o', -, hsetUp, hpass⟩
  · cases ho
  · cases ho
  · rcases o' with e | results
    · cases ho
    · obtain ⟨calls, hcalls, hc⟩ := returns_handle.1 hpass
      exact ⟨first, nodes, t, own, calls, results, rfl, hsetUp, hc, hcalls⟩

/-- The claim of a tick is that of an execution. -/
theorem claim_of_carried {t : TickScope} {tr : List CallEvent} {low : List TickEvent}
    (hc : Carries (carryOut t fuel) tr low) {args : ClaimArgs}
    (hmem : (⟨.post (.claim args), .ok true⟩ : TickEvent) ∈ low) : ∃ c ttl,
      args = c.claimArgs ttl ∧ (⟨.claim c ttl, .ok ()⟩ : CallEvent) ∈ tr := by
  obtain ⟨i, r, own, hcall, hown, hmem⟩ := hc.origin hmem
  obtain ⟨pre, post, rfl⟩ := List.append_of_mem hmem
  obtain ⟨k, hpre, -⟩ := hown.before
  have hpart := carryOut_call hpre
  cases i with
  | claim c ttl =>
      cases hpart
      obtain ⟨answer, rest, heq, hret⟩ := returns_call.1 hown
      obtain ⟨rfl, rfl⟩ := returns_ret.1 hret
      cases List.mem_singleton.1 (heq ▸ hmem)
      exact ⟨c, ttl, rfl, hcall⟩
  | lockRejected | recordBlocked => exact hpart.elim
  | moveStatus i status =>
      obtain ⟨_, _, -, -, hj⟩ := hpart
      cases hj
  | event c kind payload =>
      obtain ⟨_, hj⟩ := hpart
      cases hj
  | dispatch c =>
      rcases hpart with ⟨-, hj, -⟩ | ⟨hj⟩ | ⟨hj⟩ | ⟨hj⟩
      · cases hj
      · rcases hj with hj | hj <;> cases hj
      · rcases hj with hj | ⟨seconds, hj⟩ <;> cases hj
      · cases hj
  | readIssues => rcases hpart with hj | hj <;> cases hj
  | _ => cases hpart

/-- **A tick that ends with 0 leaves no run of its own open.** Each claim it has been granted is
followed up by a finish of that run, which the store has carried out, or has answered with 409. -/
theorem closed_of_exit_zero {tr : List TickEvent}
    (h : Returns (main files environ settings fuel).run tr (.ok 0)) {args : ClaimArgs}
    (hclaim : (⟨.post (.claim args), .ok true⟩ : TickEvent) ∈ tr) : ∃ status body r,
      (⟨.post (.finish args.runId args.issueId status body), r⟩ : TickEvent) ∈ tr ∧
        (r = .ok true ∨ r = .error (.http 409)) := by
  obtain ⟨first, nodes, t, own, calls, results, rfl, -, hc, hcalls⟩ := pass_of_exit_zero h
  rcases List.mem_cons.1 hclaim with heq | hclaim
  · cases heq
  obtain ⟨c, ttl, rfl, hmem⟩ := claim_of_carried hc hclaim
  obtain ⟨snapshots, rest, -, -, hturns⟩ := turns_of_runOnce hcalls
  obtain ⟨issue, turn, result, hsub, hmem, hresult⟩ := hturns c ttl _ hmem
  obtain ⟨status, body, r, hfinish, hr⟩ := finish_carried hresult hsub hc hmem
  exact ⟨status, body, r, List.mem_cons_of_mem _ hfinish, hr⟩

theorem sampleTick_ends : Returns (main sampleFiles sampleEnviron {} 1).run sampleTick (.ok 0) :=
  returns_advance (by decide)

/-- The context of the run of the tick. -/
def sampleContext : ExecutionContext :=
  ⟨newRunId 0 0, "LOL-1", "qualidade", "low", "auto", "local"⟩

theorem sampleTick_claims :
    (⟨.post (.claim (sampleContext.claimArgs 600)), .ok true⟩ : TickEvent) ∈ sampleTick :=
  List.mem_of_getElem? (i := 5) rfl

theorem closed_of_exit_zero_sample : ∃ status body r,
    (⟨.post (.finish (newRunId 0 0) "LOL-1" status body), r⟩ : TickEvent) ∈ sampleTick ∧
      (r = .ok true ∨ r = .error (.http 409)) :=
  closed_of_exit_zero sampleTick_ends sampleTick_claims

end HermesRuntime
