import HermesRuntime.ExecutionProof
import HermesRuntime.Raising
import HermesRuntime.RunStatus

/-!
# Linear and the run record

`execute` moves the issue in Linear first and finishes the run afterwards, on the way to review
and on the way to `Blocked`. So the last move and the row of the run agree at its end exactly when
each of these finishes lands: the run holds its lock, and the request gets to the store. Whether
its answer comes back does not matter.

* `execute_linear_ending` — the last move of an execution and its finishes.
* `linear_agrees_iff` — when the last move and the row of the run agree.
-/

namespace HermesRuntime

open Effects Prog Semantics

variable {π : Type} [DecidableEq π] {net : Net}

/-! ## The last move and the finishes -/

/-- What a claimed execution of which all moves go through comes to: a finish as completed in
review, and after it perhaps one as failed; a last call that finishes it as blocked; or a finish
as failed, with the issue where the work left it. -/
inductive LinearEnding (c : ExecutionContext) (tr : List CallEvent) : Prop
  | reviewed (fields : Mapping String) (r : Except Exc Unit)
      (rest : List (String × Except Exc Unit)) (hmove : lastMove tr = some "In Review")
      (hmem : (⟨.finish c "completed" fields, r⟩ : CallEvent) ∈ tr)
      (hall : finishes tr = ("completed", r) :: rest) (hrest : ∀ sr ∈ rest, sr.1 = "failed")
  | blocked {pre : List CallEvent} {fields : Mapping String} {r : Except Exc Unit}
      (hmove : lastMove tr = some "Blocked") (htr : tr = pre ++ [⟨.finish c "blocked" fields, r⟩])
      (hall : finishes tr = [("blocked", r)])
  | failed (hreview : lastMove tr ≠ some "In Review") (hblocked : lastMove tr ≠ some "Blocked")
      (hall : ∀ sr ∈ finishes tr, sr.1 = "failed")

/-- What `store.finish` raises in the trace is no block and carries no events. -/
def FinishesRaiseQuietly (tr : List CallEvent) : Prop :=
  ∀ c s fields e, (⟨.finish c s fields, .error e⟩ : CallEvent) ∈ tr →
    e.isBlocked = false ∧ e.event = none

/-- **The last move of an execution and its finishes.** -/
theorem execute_linear_ending {rt : AgentRuntime} {issue : Issue} {tr : List CallEvent}
    {o : Except Exc ExecutionContext} {c : ExecutionContext} {ttl : Int}
    (h : Returns (rt.execute true issue).run tr o)
    (hclaim : (⟨.claim c ttl, .ok ()⟩ : CallEvent) ∈ tr) (hmoves : movesSucceed tr = true)
    (hquiet : FinishesRaiseQuietly tr) : LinearEnding c tr := by
  rcases execute_returns h with ⟨hrefused, -⟩ | ⟨c', drawn, body, rest, htr, -, hends⟩
  · exact (hrefused _ hclaim).elim
  have hown : (⟨.claim c' rt.ttlSeconds, .ok ()⟩ : CallEvent) ∈ tr := by
    rw [htr]
    simp [claimSteps]
  obtain rfl : c = c' := claim_unique h hown hclaim
  subst htr
  rw [movesSucceed_append, movesSucceed_append, Bool.and_eq_true, Bool.and_eq_true] at hmoves
  obtain ⟨⟨-, hbody⟩, hrest⟩ := hmoves
  rcases hends with ⟨c', rfl, rfl, hb⟩ | ⟨e, hb, hf⟩
  · -- The `try` block went through: moved to review, finished as completed.
    generalize ho : (Except.ok c' : Except Exc ExecutionContext) = o at hb
    cases hb with
    | stopped | reviewFailed => cases ho
    | @finished work result r hdisp =>
        have hw := finishes_work (dispatchIssue_work hdisp)
        exact .reviewed result.fields r [] (by simp) (by simp) (by simp [hw]) (by simp)
  generalize ho : (Except.error e : Except Exc ExecutionContext) = o at hb
  cases hb with
  | reviewFailed => simp [movesSucceed_append] at hbody
  | @stopped work e' hdisp =>
      cases ho
      have hwork := dispatchIssue_work hdisp
      have hw := finishes_work hwork
      cases hf with
      | moveFailed => simp [movesSucceed_append] at hrest
      | @blocked clean r e' hclean hblocked =>
          have hnone := finishes_cleanup hclean
          refine .blocked (r := r) (by simp) (by simp only [← List.append_assoc]; rfl) ?_
          simp [hw, hnone]
      | @failed clean r e' hclean hblocked =>
          have hnone := finishes_cleanup hclean
          have hlast := lastMove_cleanup hclean
          have hmove : lastMove (claimSteps rt c drawn ++ body ++ (clean ++ [⟨.finish c "failed"
              (errorFields (errorType e (carriedOutcome e (eventAnswers clean)))), r⟩])) =
              lastMove body := by simp [hlast]
          refine .failed ?_ ?_ (by simp [hw, hnone])
          all_goals
            rw [hmove]
            rcases lastMove_work hwork with hl | hl <;> simp [hl]
  | @finished work result r hdisp =>
      have hw := finishes_work (dispatchIssue_work hdisp)
      cases r with
      | ok u => cases ho
      | error e' =>
          cases ho
          obtain ⟨hnoblock, hnoevent⟩ := hquiet c "completed" result.fields e (by simp)
          cases hf with
          | moveFailed => simp [movesSucceed_append] at hrest
          | @blocked clean r e' hclean hblocked =>
              simp [carriedOutcome, hnoevent, finishError, hnoblock] at hblocked
          | @failed clean r e' hclean hblocked =>
              have hnone := finishes_cleanup hclean
              have hlast := lastMove_cleanup hclean
              exact .reviewed result.fields (.error e) [("failed", r)] (by simp [hlast]) (by simp)
                (by simp [hw, hnone]) (by simp)

/-! ## The theorem -/

/-- Nobody but `p` finishes the run as completed or blocked. -/
def OnlyFinisher (p : π) (c : ExecutionContext) (ls : List (SysLabel π)) : Prop :=
  ∀ s ∈ ["completed", "blocked"], ∀ l ∈ ls, FinishesAs c.runId c.linearIssueId s l →
    ∃ ev, l = .call p ev

/-- The last step is a call of `p`. -/
def StopsAt (p : π) (ls : List (SysLabel π)) : Prop := ∃ ev, ls.getLast? = some (.call p ev)

/-- The last status passed to `move_status` and the stored status of the run agree. -/
def LinearAgrees (tr : List CallEvent) (db : Db) (c : ExecutionContext) : Prop :=
  (lastMove tr = some "In Review" ↔ db.HasStatus c.runId c.linearIssueId .completed) ∧
    (lastMove tr = some "Blocked" ↔ db.HasStatus c.runId c.linearIssueId .blocked)

instance (tr : List CallEvent) (db : Db) (c : ExecutionContext) :
    Decidable (LinearAgrees tr db c) := inferInstanceAs (Decidable (_ ∧ _))

theorem finishesRaiseQuietly_of_run {α : Type} {p : π} {m₀ m' : SysConfig π α}
    {ls : List (SysLabel π)} (hrun : (system net).Run m₀ ls m') :
    FinishesRaiseQuietly (eventsOf p ls) := by
  intro c s fields e hmem
  obtain ⟨w, w', d, -, hans, -⟩ := answered_of_run hrun hmem
  exact supabase_finish_raises (congrArg Prod.fst hans)

/-- The last event of a program that makes the last step is that step. -/
theorem StopsAt.eq_append {p : π} {ls : List (SysLabel π)} {pre : List CallEvent} {ev : CallEvent}
    (h : StopsAt p ls) (htr : eventsOf p ls = pre ++ [ev]) : ∃ ls', ls = ls' ++ [.call p ev] := by
  obtain ⟨ev', hlast⟩ := h
  obtain ⟨ls', rfl⟩ := List.getLast?_eq_some_iff.1 hlast
  rw [eventsOf_append, eventsOf_singleton, Label.eventOf_call_self] at htr
  obtain ⟨-, hev⟩ := List.append_inj' htr rfl
  exact ⟨ls', by rw [List.singleton_inj.1 hev]⟩

/-- **Linear and the run record.** When an execution ends after a claim that went through, and
all its moves went through, the last move and the row of its run agree exactly when its finishes as
completed and as blocked land. -/
theorem linear_agrees_iff {p : π} {rt : AgentRuntime} {issue : Issue}
    {m₀ m' : SysConfig π (Except Exc ExecutionContext)} {ls : List (SysLabel π)}
    {o : Except Exc ExecutionContext} {c : ExecutionContext} {ttl : Int}
    (hcons : m₀.world.db.Consistent) (hp : m₀.progs p = (rt.execute true issue).run)
    (hrun : (system net).Run m₀ ls m') (hret : m'.progs p = .ret o) (hstops : StopsAt p ls)
    (hclaim : (⟨.claim c ttl, .ok ()⟩ : CallEvent) ∈ eventsOf p ls)
    (hmoves : movesSucceed (eventsOf p ls) = true) (honly : OnlyFinisher p c ls) :
    LinearAgrees (eventsOf p ls) m'.world.db c ↔
      FinishLands net p c "completed" m₀ ls m' ∧ FinishLands net p c "blocked" m₀ ls m' := by
  have hreturns : Returns (rt.execute true issue).run (eventsOf p ls) o := by
    have hreach := hrun.reach p
    rw [hp, hret] at hreach
    exact hreach
  have hcompleted := honly "completed" (by simp)
  have hblocked := honly "blocked" (by simp)
  cases execute_linear_ending hreturns hclaim hmoves (finishesRaiseQuietly_of_run hrun) with
  | reviewed fields r rest hmove hmem hall hrest =>
      obtain ⟨pre, post, hls⟩ := List.append_of_mem (mem_eventsOf.1 hmem)
      have hone : ((finishes (eventsOf p ls)).map Prod.fst).count "completed" ≤ 1 := by
        rw [hall, List.map_cons, List.count_cons_self, List.count_eq_zero.2]
        intro hin
        obtain ⟨sr, hsr, heq⟩ := List.mem_map.1 hin
        rw [hrest sr hsr] at heq
        exact absurd heq (by decide)
      have hstored := stored_iff_lands byFinish_completed hcons hrun hclaim hcompleted hone hls
        (by simp)
      have hno : ∀ sr ∈ finishes (eventsOf p ls), sr.1 ≠ "blocked" := by
        rw [hall]
        intro sr hsr
        rcases List.mem_cons.1 hsr with rfl | hsr
        · simp
        · rw [hrest sr hsr]
          decide
      have hnot := not_hasStatus_of_unfinished hrun byFinish_blocked hclaim hblocked hno
      have hlands : FinishLands net p c "blocked" m₀ ls m' := finishLands_of_unfinished hno
      simp [LinearAgrees, hmove, hstored, hnot, hlands]
  | @blocked pre fields r hmove htr hall =>
      obtain ⟨ls', hls⟩ := hstops.eq_append htr
      have hstored := stored_iff_lands byFinish_blocked hcons hrun hclaim hblocked
        (by simp [hall]) hls (fun _ hreleases => by cases hreleases)
      have hno : ∀ sr ∈ finishes (eventsOf p ls), sr.1 ≠ "completed" := by simp [hall]
      have hnot := not_hasStatus_of_unfinished hrun byFinish_completed hclaim hcompleted hno
      have hlands : FinishLands net p c "completed" m₀ ls m' := finishLands_of_unfinished hno
      simp [LinearAgrees, hmove, hstored, hnot, hlands]
  | failed hreview hblockedmove hall =>
      have hnot := not_hasStatus_of_unfinished hrun byFinish_completed hclaim hcompleted
        fun sr hsr => by rw [hall sr hsr]; decide
      have hnot' := not_hasStatus_of_unfinished hrun byFinish_blocked hclaim hblocked
        fun sr hsr => by rw [hall sr hsr]; decide
      exact iff_of_true ⟨iff_of_false hreview hnot, iff_of_false hblockedmove hnot'⟩
        ⟨finishLands_of_unfinished fun sr hsr => by rw [hall sr hsr]; decide,
          finishLands_of_unfinished fun sr hsr => by rw [hall sr hsr]; decide⟩

/-! ## One finish that fails -/

/-- Requests are answered, except that a finish as completed has the fate `d`. -/
def completionNet (d : Delivery) : Net := fun call d' => match call with
  | .finish _ s _ => d' = if s = "completed" then d else .answered
  | _ => d' = .answered

/-- Everything goes through but the finish as completed. -/
def completionDriver (d : Delivery) : Driver (system (π := Unit) (completionNet d)) where
  answer := fun p call w => match call with
    | .finish c s fields =>
        let (r, db) := SupabaseStore.finish (if s = "completed" then d else .answered) w.now c s
          fields w.db
        (r, w.withDb db)
    | call => (gatelessScript (.ok ())).answer p call w
  answer_sound := by
    intro p call w
    cases call with
    | finish => exact ⟨_, rfl, rfl, rfl⟩
    | claim | event | recover => exact ⟨.answered, rfl, rfl, rfl⟩
    | entropy | lockRejected | dispatch | recordBlocked | startHeartbeat => exact rfl
    | joinHeartbeat => exact ⟨rfl, rfl⟩
    | readIssues => exact ⟨rfl, .refl _⟩
    | moveStatus i s => exact (gatelessScript (.ok ())).answer_sound p (.moveStatus i s) w
  surround := fun _ _ => none
  surround_sound := nofun

/-- A worker about to execute the issue of the QA agent, over empty tables. -/
def qaStart : SysConfig Unit (Except Exc ExecutionContext) :=
  ⟨fun _ => (AgentRuntime.ofStore.execute true qaIssue).run, .start ⟨[], List.nodup_nil⟩⟩

/-- The worker takes its turns to the end. -/
def completionRun (d : Delivery) (turns : Nat) :
    List (SysLabel Unit) × SysConfig Unit (Except Exc ExecutionContext) :=
  (completionDriver d).run ((List.replicate turns ()).map .inl) qaStart

/-- The context of the run. -/
def reviewedContext : ExecutionContext :=
  ⟨newRunId 0 0, "LOL-1", "qualidade", "low", "auto", "local"⟩

theorem stopsAt_of_getLast {p : Unit} {ls : List (SysLabel Unit)}
    (h : (ls.getLast?.bind (·.eventOf p)).isSome = true) : StopsAt p ls := by
  obtain ⟨ev, hev⟩ := Option.isSome_iff_exists.1 h
  obtain ⟨l, hl, hof⟩ := Option.bind_eq_some_iff.1 hev
  cases l with
  | call q ev' => exact ⟨ev', hl⟩
  | env x => cases hof

theorem onlyFinisher_completionRun (d : Delivery) (turns : Nat) :
    OnlyFinisher () reviewedContext (completionRun d turns).1 := by
  intro s _ l hl _
  obtain ⟨_, -, ev, rfl⟩ := (completionDriver d).mem_run_turns hl
  exact ⟨ev, rfl⟩

/-- The finish as completed is not delivered: the issue stays in review, and the run is recorded
as failed. -/
theorem linear_agrees_fails :
    ¬ ∀ (net : Net) (p : Unit) (rt : AgentRuntime) (issue : Issue)
      (m₀ m' : SysConfig Unit (Except Exc ExecutionContext)) (ls : List (SysLabel Unit))
      (o : Except Exc ExecutionContext) (c : ExecutionContext) (ttl : Int),
      m₀.world.db.Consistent → m₀.progs p = (rt.execute true issue).run →
      (system net).Run m₀ ls m' → m'.progs p = .ret o → StopsAt p ls →
      (⟨.claim c ttl, .ok ()⟩ : CallEvent) ∈ eventsOf p ls →
      movesSucceed (eventsOf p ls) = true → OnlyFinisher p c ls →
      LinearAgrees (eventsOf p ls) m'.world.db c := by
  intro h
  let d : Delivery := .refused (.http 500)
  obtain ⟨o, ho⟩ := Option.isSome_iff_exists.1
    (by decide : ((completionRun d 11).2.progs ()).result.isSome)
  have hclaim : (⟨.claim reviewedContext 600, .ok ()⟩ : CallEvent) ∈
      eventsOf () (completionRun d 11).1 := List.mem_of_getElem? (i := 1) rfl
  have hagrees := h (completionNet d) () .ofStore qaIssue qaStart (completionRun d 11).2
    (completionRun d 11).1 o reviewedContext 600 (consistent_empty _) rfl
    ((completionDriver d).run_sound _ _) (ret_of_result ho) (stopsAt_of_getLast (by decide))
    hclaim (by decide) (onlyFinisher_completionRun d 11)
  exact absurd hagrees (by decide)

/-- The finish as completed is carried out, but its answer is lost: `execute` raises, and the
records agree all the same. -/
theorem linear_agrees_iff_lost :
    let d : Delivery := .lost (.raised "TimeoutError" "timed out")
    let run := completionRun d 11
    lastMove (eventsOf () run.1) = some "In Review" ∧
      run.2.world.db.HasStatus reviewedContext.runId "LOL-1" .completed ∧
      LinearAgrees (eventsOf () run.1) run.2.world.db reviewedContext ∧
      FinishLands (completionNet d) () reviewedContext "completed" qaStart run.1 run.2 ∧
      FinishLands (completionNet d) () reviewedContext "blocked" qaStart run.1 run.2 := by
  intro d run
  obtain ⟨o, ho⟩ := Option.isSome_iff_exists.1
    (by decide : ((completionRun d 11).2.progs ()).result.isSome)
  have hclaim : (⟨.claim reviewedContext 600, .ok ()⟩ : CallEvent) ∈
      eventsOf () (completionRun d 11).1 := List.mem_of_getElem? (i := 1) rfl
  have hagrees : LinearAgrees (eventsOf () (completionRun d 11).1) (completionRun d 11).2.world.db
      reviewedContext := by decide
  exact ⟨by decide, by decide, hagrees, (linear_agrees_iff (consistent_empty _) rfl
    ((completionDriver d).run_sound _ _) (ret_of_result ho) (stopsAt_of_getLast (by decide))
    hclaim (by decide) (onlyFinisher_completionRun d 11)).1 hagrees⟩

end HermesRuntime
