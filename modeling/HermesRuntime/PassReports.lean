import HermesRuntime.PassOutcome
import HermesRuntime.Raising
import HermesRuntime.RunStatus

/-!
# What a pass reports and what the store holds

A turn reports by the class of the exception that leaves `execute`, and any call after the claim
can raise an exception of either class. So the report is right exactly when none does at the
wrong place.

* `CreatesNoRun`, `refused_creates_no_run` — a turn without a claim.
* `leaving` — the exception that leaves, read off the answers.
* `Left`, `execute_left` — what a claimed execution leaves behind when it raises.
* `pass_reports_iff` — when the report of a turn is what the store holds.
-/

namespace HermesRuntime

open Effects Prog Proc Semantics

variable {π : Type} [DecidableEq π] {net : Net} {α : Type}

/-! ## A turn without a claim -/

/-- The ids of the runs, in the order of the rows. -/
def Db.runIds (db : Db) : List String := db.runs.rows.map (·.runId)

/-- No call of `p` adds a run. -/
def CreatesNoRun (net : Net) (p : π) (m₀ : SysConfig π α) (ls : List (SysLabel π))
    (m' : SysConfig π α) : Prop :=
  ∀ ev m₁ m₂, (system net).Passes m₀ ls m' m₁ (.call p ev) m₂ →
    m₂.world.db.runIds = m₁.world.db.runIds

/-- A claim that is answered with a 409 has been rolled back. -/
def ConflictRollsBack (net : Net) : Prop := ∀ c ttl, ¬ net (.claim c ttl) (.lost (.http 409))

/-- Only a claim adds a run. -/
theorem runIds_apply {db : Db} (hc : db.Consistent) {op : StoreOp} (hop : ∀ a, op ≠ .claim a)
    (now : Timestamp) : (op.apply now db).runIds = db.runIds := by
  have hmap : ∀ {f : AgentRun → AgentRun}, (op.apply now db).runs.rows = db.runs.rows.map f →
      (∀ x, (f x).runId = x.runId) → (op.apply now db).runIds = db.runIds := by
    intro f hruns hf
    unfold Db.runIds
    rw [hruns, List.map_map]
    exact List.map_congr_left fun x _ => hf x
  cases apply_effect hc now op with
  | idle hruns hlocks => exact congrArg (List.map (·.runId)) hruns
  | started hop' hruns hlocks => exact absurd hop' (hop _)
  | touched hop' hl hlive hruns hlocks => exact hmap hruns fun x => by split <;> rfl
  | ended hop' hl hf hfs hruns hlocks =>
      refine hmap hruns fun x => ?_
      split
      · exact (hf x).1
      · rfl
  | released hop' hruns hlocks => exact hmap hruns fun x => by split <;> rfl

/-- A claim that raises a conflict adds no run. -/
theorem supabase_claim_conflict {d : Delivery} {now : Timestamp} {c : ExecutionContext} {ttl : Int}
    {db db' : Db} {e : Exc} (h : SupabaseStore.claim d now c ttl db = (.error e, db'))
    (hd : d ≠ .lost (.http 409)) (he : e.isConflict = true) : db'.runIds = db.runIds := by
  cases d with
  | refused f => exact congrArg (fun r => r.2.runIds) h.symm
  | lost f =>
      obtain rfl : f.exc = e := Except.error.inj (congrArg Prod.fst h)
      cases f with
      | raised typeName message => cases he
      | http code =>
          by_cases hcode : code = 409
          · exact absurd (by rw [hcode]) hd
          · simp [Failure.exc, hcode, Exc.runtimeError] at he
  | answered =>
      rcases claim_cases now (c.claimArgs ttl) db with
        ⟨-, hc⟩ | ⟨-, -, db'', hc, -⟩ | ⟨-, -, hc⟩
      · simp only [SupabaseStore.claim, post, StoreOp.txn, hc, SupabaseStore.orRaise,
          Prod.mk.injEq] at h
        rw [h.2]
      · simp [SupabaseStore.claim, post, StoreOp.txn, hc, SupabaseStore.orRaise] at h
      · simp only [SupabaseStore.claim, post, StoreOp.txn, hc, SupabaseStore.orRaise,
          Prod.mk.injEq] at h
        rw [← h.2]
        rfl

/-- **Where every claim raises a conflict, no run is created.** -/
theorem refused_creates_no_run {p : π} {m₀ m' : SysConfig π α} {ls : List (SysLabel π)}
    (hroll : ConflictRollsBack net) (hcons : m₀.world.db.Consistent)
    (hrefused : ∀ c ttl r, (⟨.claim c ttl, r⟩ : CallEvent) ∈ eventsOf p ls →
      ∃ e, r = .error e ∧ e.isConflict = true) : CreatesNoRun net p m₀ ls m' := by
  intro ev m₁ m₂ ⟨pre, post, hls, hr₁, hstep, _⟩
  have hc₁ := run_consistent hr₁ hcons
  obtain ⟨call, r⟩ := ev
  by_cases hclaim : ∃ c ttl, call = .claim c ttl
  · obtain ⟨c, ttl, rfl⟩ := hclaim
    obtain ⟨e, rfl, he⟩ := hrefused c ttl r (mem_eventsOf.2 (by simp [hls]))
    cases hstep with
    | call hp ha =>
        obtain ⟨d, hd, hans, -⟩ := ha
        exact supabase_claim_conflict hans (fun hlost => hroll c ttl (hlost ▸ hd)) he
  · rcases step_db hstep with heq | ⟨op, hop, heq⟩
    · rw [heq]
    · rw [heq]
      refine runIds_apply hc₁ (fun a ha => ?_) _
      subst ha
      cases hop
      exact hclaim ⟨_, _, rfl⟩

/-- An execution without a claim raises what its claim did, or that was a conflict. -/
theorem execute_refused {rt : AgentRuntime} {m : Bool} {issue : Issue} {tr : List CallEvent}
    {e : Exc} (h : Returns (rt.execute m issue).run tr (.error e)) (hclaim : claimed tr = false) :
    (∀ ev ∈ tr, IsRefusal ev) ∧ ∀ c ttl r, (⟨.claim c ttl, r⟩ : CallEvent) ∈ tr →
      ∃ e', r = .error e' ∧ (e' = e ∨ e'.isConflict = true) := by
  rcases execute_claims h with ⟨hrefused, -⟩ | ⟨c, drawn, own, rfl, -, -⟩
  swap
  · cases hclaim
  refine ⟨hrefused, fun c ttl r hmem => ?_⟩
  cases hclass : classifyIssue issue with
  | error raised =>
      unfold AgentRuntime.execute at h
      rw [hclass] at h
      rcases returns_run_bind.1 h with ⟨_, _, _, -, hfields, -⟩ | ⟨_, hfields, -⟩
      · cases (returns_settle.1 hfields).2
      · rw [(returns_settle.1 hfields).1] at hmem
        cases hmem
  | ok fields =>
      obtain ⟨c', drawn, r', rest, rfl, -, -, hraised⟩ := execute_accepted h ⟨fields, hclass⟩
      cases r' with
      | ok =>
          have hclaimed := hrefused ⟨.claim c' rt.ttlSeconds, .ok ()⟩ (by simp)
          exact hclaimed.elim
      | error e' =>
          obtain ⟨hrest, ho⟩ := hraised e' rfl
          simp only [List.mem_cons] at hmem
          rcases hmem with heq | heq | hmem
          · cases heq
          · cases heq
            refine ⟨e', rfl, ho.imp (fun ho => ?_) And.left⟩
            exact (Except.error.inj ho).symm
          · obtain ⟨_, heq⟩ := hrest _ hmem
            cases heq

/-! ## What an execution leaves behind -/

/-- The last answer, where it is an exception. -/
def raisedLast (tr : List CallEvent) : Option Exc :=
  match (answers tr).getLast? with
  | some (.error e) => some e
  | _ => none

/-- The exception that leaves, read off the answers: the last one, where it is an exception, and
the first exception otherwise. -/
def leaving (tr : List CallEvent) : Option Exc :=
  (raisedLast tr).or
    (match firstError (answers tr) with
      | .error e => some e
      | .ok () => none)

theorem raisedLast_error {tr : List CallEvent} {e : Exc} (rs : List (Except Exc Unit))
    (h : answers tr = rs ++ [.error e]) : raisedLast tr = some e := by
  have hlast : (answers tr).getLast? = some (.error e) := by rw [h, List.getLast?_concat]
  unfold raisedLast
  rw [hlast]

theorem raisedLast_ok {tr : List CallEvent} (rs : List (Except Exc Unit))
    (h : answers tr = rs ++ [.ok ()]) : raisedLast tr = none := by
  have hlast : (answers tr).getLast? = some (.ok ()) := by rw [h, List.getLast?_concat]
  unfold raisedLast
  rw [hlast]

/-- What a claimed execution that raises `e` leaves behind: its move to `Blocked` raised, and
nothing is finished as blocked; its finish raised; or that went through, after an exception of its
own, or after the first that was answered. -/
inductive Left (c : ExecutionContext) (tr : List CallEvent) (e : Exc) : Prop
  | moveRaised (hlast : raisedLast tr = some e) (hfin : ∀ sr ∈ finishes tr, sr.1 ≠ "blocked")
  | finishRaised (hlast : raisedLast tr = some e)
      (hmem : ∃ s fields, (⟨.finish c s fields, .error e⟩ : CallEvent) ∈ tr)
  | own (hlast : raisedLast tr = none) (hgood : firstError (answers tr) = .ok ())
      (hconflict : e.isConflict = false)
      (hmem : ∃ fields, (⟨.finish c (failStatus e (.ok ())) fields, .ok ()⟩ : CallEvent) ∈ tr)
  | answered (hlast : raisedLast tr = none) (hfirst : firstError (answers tr) = .error e)
      (hmem : ∃ fields, (⟨.finish c (failStatus e (carriedOutcome e (eventAnswers tr))) fields,
        .ok ()⟩ : CallEvent) ∈ tr)

theorem answers_failEnd (m : Bool) (i : String) (exc : Exc) (persisted : Except Exc Unit)
    (c : ExecutionContext) (s : String) (fields : Mapping String) (r : Except Exc Unit) :
    answers (failMoves m i exc persisted ++ [⟨.finish c s fields, r⟩]) =
      answers (failMoves m i exc persisted) ++ [r] := answers_append _ _

theorem eventAnswers_failEnd (m : Bool) (i : String) (exc : Exc) (persisted : Except Exc Unit)
    (c : ExecutionContext) (s : String) (fields : Mapping String) (r : Except Exc Unit) :
    eventAnswers (failMoves m i exc persisted ++ [⟨.finish c s fields, r⟩]) = [] := by
  unfold failMoves movedTo
  split <;> rfl

/-- What `store.event` raises in the trace is no block and carries no events. -/
def EventsRaiseQuietly (tr : List CallEvent) : Prop :=
  ∀ e, .error e ∈ eventAnswers tr → e.isBlocked = false ∧ e.event = none

/-- What `persisted` is does not depend on the posts before, where these went through. -/
theorem carriedOutcome_append {exc : Exc} {rs : List (Except Exc Unit)}
    (h : exc.event ≠ none → firstError rs = .ok ()) (rs' : List (Except Exc Unit)) :
    carriedOutcome exc (rs ++ rs') = carriedOutcome exc rs' := by
  unfold carriedOutcome
  cases hevent : exc.event with
  | none => rfl
  | some ev =>
      have hsame := firstError_append (h (by simp [hevent])) rs'
      rw [hsame]

/-- The exception a block raises was answered by no event that could have been posted before. -/
theorem eventAnswers_good {tr : List CallEvent} {good : List (Except Exc Unit)} {e : Exc}
    (hgood : firstError good = .ok ()) (hlast : answers tr = good ++ [.error e])
    (hquiet : EventsRaiseQuietly tr) (hevent : e.event ≠ none) :
    firstError (eventAnswers tr) = .ok () := by
  refine firstError_eq_ok.2 fun r hr => ?_
  obtain ⟨c, kind, payload, hmem⟩ := mem_eventAnswers.1 hr
  have hanswer : r ∈ answers tr := List.mem_filterMap.2 ⟨_, hmem, rfl⟩
  rw [hlast] at hanswer
  rcases List.mem_append.1 hanswer with hanswer | hanswer
  · exact firstError_eq_ok.1 hgood r hanswer
  · obtain rfl := List.mem_singleton.1 hanswer
    exact absurd (hquiet e hr).2 hevent

/-- **What a claimed execution leaves behind.** -/
theorem execute_left {rt : AgentRuntime} {m : Bool} {issue : Issue} {tr : List CallEvent} {e : Exc}
    (h : Returns (rt.execute m issue).run tr (.error e)) (hclaim : claimed tr = true)
    (hquiet : EventsRaiseQuietly tr) :
    ∃ c, (⟨.claim c rt.ttlSeconds, .ok ()⟩ : CallEvent) ∈ tr ∧ c.linearIssueId = issue.identifier ∧
      Left c tr e := by
  obtain ⟨c, drawn, body, exc, outcomes, posts, tail, rfl, hcontext, hbody, hposts, hend⟩ :=
    execute_raises h hclaim
  generalize hpersisted : carriedOutcome exc (eventAnswers posts) = persisted at hposts hend
  refine ⟨c, by simp [claimSteps], hcontext.2.1, ?_⟩
  have hanswers : answers (claimSteps rt c drawn ++ body ++ ⟨.joinHeartbeat c, outcomes⟩ ::
      (posts ++ tail)) = answers body ++ answers posts ++ answers tail := by
    rw [answers_append, answers_append, answers_claimSteps, List.nil_append, List.append_assoc,
      ← answers_append posts]
    rfl
  have hevents : eventAnswers (claimSteps rt c drawn ++ body ++ ⟨.joinHeartbeat c, outcomes⟩ ::
      (posts ++ tail)) = eventAnswers body ++ (eventAnswers posts ++ eventAnswers tail) := by
    rw [eventAnswers_append, eventAnswers_append, ← eventAnswers_append posts]
    rfl
  have htail : ∀ ev ∈ tail, ev ∈ claimSteps rt c drawn ++ body ++
      ⟨.joinHeartbeat c, outcomes⟩ :: (posts ++ tail) := fun ev hev =>
    List.mem_append_right _ (List.mem_cons_of_mem _ (List.mem_append_right _ hev))
  cases hend with
  | moveRaised _ hblocked =>
      refine .moveRaised (raisedLast_error _ hanswers) fun sr hsr => ?_
      have hnone := finishes_cleanup ((persistCarried_only c exc).mem hposts)
      have hsr' : sr ∈ finishes body := by
        rw [finishes_append, finishes_append, finishes_claimSteps, List.nil_append] at hsr
        refine (List.mem_append.1 hsr).resolve_right fun hrest => ?_
        change sr ∈ finishes (posts ++ _) at hrest
        rw [finishes_append, hnone] at hrest
        cases hrest
      rcases (bodyTrace_finishes (executeBody_returns hbody)).2 with
        ⟨hall, -⟩ | ⟨_, _, r, -, hall, -⟩
      · rw [hall] at hsr'
        cases hsr'
      · rw [hall] at hsr'
        have hcompleted : sr.1 = "completed" := by rw [List.mem_singleton.1 hsr']
        rw [hcompleted]
        decide
  | finishRaised _ =>
      have hlast := hanswers.trans (by rw [answers_failEnd, ← List.append_assoc])
      exact .finishRaised (raisedLast_error _ hlast)
        ⟨_, _, htail _ (List.mem_append_right _ (List.mem_singleton_self _))⟩
  | finished =>
      have hmem := htail _ (List.mem_append_right _ (List.mem_singleton_self _))
      have hlast := raisedLast_ok _ (hanswers.trans (by rw [answers_failEnd, ← List.append_assoc]))
      cases executeBody_surfaces m issue c _ _ hbody with
      | own _ hgood hconflict hevent _ =>
          obtain rfl := posts_of_no_event hposts hevent
          obtain rfl : .ok () = persisted := (carriedOutcome_none hevent _).symm.trans hpersisted
          refine .own hlast ?_ hconflict ⟨_, hmem⟩
          rw [hanswers, List.append_assoc, firstError_append hgood, answers_failEnd]
          exact firstError_append (answers_failMoves _ _ _ _) _
      | answered _ good hgood hbodylast =>
          have hfirst : firstError (answers body) = .error e := by
            rw [hbodylast, firstError_append hgood]
            rfl
          refine .answered hlast ?_ ⟨errorFields (errorType e persisted), ?_⟩
          · rw [hanswers, List.append_assoc]
            exact firstError_append_error hfirst _
          · rw [hevents, eventAnswers_failEnd, List.append_nil, carriedOutcome_append, hpersisted]
            · exact hmem
            · refine eventAnswers_good hgood hbodylast fun e' he' => hquiet e' ?_
              rw [hevents]
              exact List.mem_append_left _ he'

/-- An execution that returns has been answered nothing but good, and finished as completed. -/
theorem execute_completes {rt : AgentRuntime} {m : Bool} {issue : Issue} {tr : List CallEvent}
    {c : ExecutionContext} (h : Returns (rt.execute m issue).run tr (.ok c)) :
    c.linearIssueId = issue.identifier ∧ firstError (answers tr) = .ok () ∧
      ∃ fields, (⟨.finish c "completed" fields, .ok ()⟩ : CallEvent) ∈ tr := by
  rcases execute_claims h with ⟨-, e, ho⟩ | ⟨c', drawn, own, rfl, hcontext, hown⟩
  · cases ho
  rcases returns_run_tryCatch.1 hown with ⟨_, hbody, ho⟩ | ⟨_, _, _, -, -, hfail⟩
  swap
  · cases executeFailed_returns hfail
  cases ho
  have hgood : firstError (answers own) = .ok () := by
    cases executeBody_surfaces m issue c' _ _ hbody with
    | returned _ hgood => exact hgood
  rcases (bodyTrace_finishes (executeBody_returns hbody)).2 with
    ⟨-, e, ho⟩ | ⟨mid, fields, r, rfl, -, ho⟩
  · cases ho
  · cases r with
    | error e => cases ho
    | ok u =>
        cases ho
        exact ⟨hcontext.2.1, by simpa using hgood, fields, by simp⟩

/-! ## The report of a turn -/

/-- Nobody but `p` finishes a run of the issue as blocked, and the operator releases none. -/
def OnlyBlocker (p : π) (i : String) (ls : List (SysLabel π)) : Prop :=
  (∀ r, ∀ l ∈ ls, FinishesAs r i "blocked" l → ∃ ev, l = .call p ev) ∧ ¬ Releases i ls

/-- Nothing is claimed: no claim goes through, and no run is created. -/
def ClaimsNothing (net : Net) (p : π) (m₀ : SysConfig π α) (ls : List (SysLabel π))
    (m' : SysConfig π α) : Prop :=
  claimed (eventsOf p ls) = false ∧ CreatesNoRun net p m₀ ls m'

/-- The result of a turn of `p` is what the store holds at its end. -/
structure Reports (net : Net) (p : π) (i : String) (m₀ : SysConfig π α) (ls : List (SysLabel π))
    (m' : SysConfig π α) (result : OrchestratorRunResult) : Prop where
  conflict : result.status = "conflict" →
    ClaimsNothing net p m₀ ls m' ∧ ∀ ev ∈ eventsOf p ls, ¬ IsDispatch ev
  completed : result.status = "completed" →
    ∃ r, result.runId = some r ∧ m'.world.db.HasStatus r i .completed
  blocked : result.status = "blocked" →
    ClaimsNothing net p m₀ ls m' ∨ ∃ c ttl, (⟨.claim c ttl, .ok ()⟩ : CallEvent) ∈ eventsOf p ls ∧
      m'.world.db.HasStatus c.runId i .blocked

/-- After the claim, the exception that leaves is no conflict; and where it is a block, it was not
the last answer, and the events it carries are accepted and stored. -/
def Truthful (tr : List CallEvent) : Prop :=
  claimed tr = true → ∀ e, leaving tr = some e → e.isConflict = false ∧
    (e.isBlocked = true → raisedLast tr = none ∧ carriedOutcome e (eventAnswers tr) = .ok ())

theorem mem_turn {i reason : String} {b records : Bool} {exec : List CallEvent} {ev : CallEvent}
    (h : ev ∈ ⟨.recover i, .ok b⟩ :: (exec ++ blockRecorded records i reason)) :
    ev.1 = .recover i ∨ ev ∈ exec ∨ ev.1 = .recordBlocked i reason := by
  rcases List.mem_cons.1 h with rfl | h
  · exact Or.inl rfl
  rcases List.mem_append.1 h with h | h
  · exact Or.inr (Or.inl h)
  · cases records
    · cases h
    · rw [List.mem_singleton.1 h]
      exact Or.inr (Or.inr rfl)

theorem answers_turn (i reason : String) (b records : Bool) (exec : List CallEvent) :
    answers (⟨.recover i, .ok b⟩ :: (exec ++ blockRecorded records i reason)) = answers exec := by
  show answers (exec ++ _) = _
  rw [answers_append]
  cases records <;> exact List.append_nil _

theorem eventAnswers_turn (i reason : String) (b records : Bool) (exec : List CallEvent) :
    eventAnswers (⟨.recover i, .ok b⟩ :: (exec ++ blockRecorded records i reason)) =
      eventAnswers exec := by
  show eventAnswers (exec ++ _) = _
  rw [eventAnswers_append]
  cases records <;> exact List.append_nil _

theorem finishes_turn (i reason : String) (b records : Bool) (exec : List CallEvent) :
    finishes (⟨.recover i, .ok b⟩ :: (exec ++ blockRecorded records i reason)) = finishes exec := by
  show finishes (exec ++ _) = _
  rw [finishes_append]
  cases records <;> exact List.append_nil _

theorem claimed_turn (i reason : String) (b records : Bool) (exec : List CallEvent) :
    claimed (⟨.recover i, .ok b⟩ :: (exec ++ blockRecorded records i reason)) = claimed exec := by
  show claimed (exec ++ _) = _
  unfold claimed
  rw [List.any_append]
  cases records <;> exact Bool.or_false _

theorem eventsRaiseQuietly_turn (i reason : String) (b records : Bool) (exec : List CallEvent) :
    EventsRaiseQuietly (⟨.recover i, .ok b⟩ :: (exec ++ blockRecorded records i reason)) =
      EventsRaiseQuietly exec := by
  unfold EventsRaiseQuietly
  rw [eventAnswers_turn]

/-- Truth is decided by the answers of the execution. -/
theorem truthful_turn (i reason : String) (b records : Bool) (exec : List CallEvent) :
    Truthful (⟨.recover i, .ok b⟩ :: (exec ++ blockRecorded records i reason)) ↔ Truthful exec := by
  unfold Truthful leaving raisedLast
  rw [answers_turn, eventAnswers_turn, claimed_turn]

theorem raisedLast_of_good {tr : List CallEvent} (h : firstError (answers tr) = .ok ()) :
    raisedLast tr = none := by
  unfold raisedLast
  cases hlast : (answers tr).getLast? with
  | none => rfl
  | some r =>
      rw [firstError_eq_ok.1 h r (List.mem_of_getLast? hlast)]

theorem leaving_of_good {tr : List CallEvent} (h : firstError (answers tr) = .ok ()) :
    leaving tr = none := by
  unfold leaving
  rw [raisedLast_of_good h, h]
  rfl

theorem leaving_of_last {tr : List CallEvent} {e : Exc} (h : raisedLast tr = some e) :
    leaving tr = some e := by
  unfold leaving
  rw [h]
  rfl

theorem leaving_of_first {tr : List CallEvent} {e : Exc} (hlast : raisedLast tr = none)
    (h : firstError (answers tr) = .error e) : leaving tr = some e := by
  unfold leaving
  rw [hlast, h]
  rfl

/-- Where the exception that leaves is a conflict, the report is not truthful. -/
theorem not_truthful_of_conflict {c : ExecutionContext} {tr : List CallEvent} {e : Exc}
    (h : Left c tr e) (hclaim : claimed tr = true) (he : e.isConflict = true) : ¬ Truthful tr := by
  have hleaving : leaving tr = some e := by
    cases h with
    | moveRaised hlast => exact leaving_of_last hlast
    | finishRaised hlast => exact leaving_of_last hlast
    | own _ _ hconflict => exact absurd he (by simp [hconflict])
    | answered hlast hfirst => exact leaving_of_first hlast hfirst
  intro htruthful
  have hno := (htruthful hclaim e hleaving).1
  rw [he] at hno
  cases hno

/-- What persisting raised is no block, so the run is then finished as failed. -/
theorem carriedOutcome_raises {exc e : Exc} {tr : List CallEvent} (hquiet : EventsRaiseQuietly tr)
    (h : carriedOutcome exc (eventAnswers tr) = .error e) : e.isBlocked = false := by
  unfold carriedOutcome at h
  cases hevent : exc.event with
  | none =>
      rw [hevent] at h
      cases h
  | some ev =>
      rw [hevent] at h
      dsimp only at h
      cases hnorm : normalizeEvents [] ev.events with
      | error e' =>
          rw [hnorm] at h
          cases h
          exact (normalizeEvents_raises _ _ _ hnorm).not_blocked
      | ok normalized =>
          rw [hnorm] at h
          exact (hquiet e (mem_of_firstError h)).1

theorem eventsRaiseQuietly_of_run {p : π} {m₀ m' : SysConfig π α} {ls : List (SysLabel π)}
    (hrun : (system net).Run m₀ ls m') : EventsRaiseQuietly (eventsOf p ls) := by
  intro e he
  obtain ⟨c, kind, payload, hmem⟩ := mem_eventAnswers.1 he
  obtain ⟨w, w', d, -, hans, -⟩ := answered_of_run hrun hmem
  exact supabase_event_raises (congrArg Prod.fst hans)

/-- **A claimed turn that reports a block** has its run stored as blocked exactly when that is
truthful. -/
theorem blocked_iff_truthful {p : π} {m₀ m' : SysConfig π α} {ls : List (SysLabel π)}
    {c : ExecutionContext} {ttl : Int} {tr : List CallEvent} {e : Exc}
    (hcons : m₀.world.db.Consistent) (hrun : (system net).Run m₀ ls m')
    (honly : OnlyBlocker p c.linearIssueId ls) (htr : ∀ ev ∈ tr, ev ∈ eventsOf p ls)
    (hfinishes : finishes (eventsOf p ls) = finishes tr) (hquiet : EventsRaiseQuietly tr)
    (hmem : (⟨.claim c ttl, .ok ()⟩ : CallEvent) ∈ tr) (hleft : Left c tr e)
    (hconflict : e.isConflict = false) (hblocked : e.isBlocked = true)
    (hclaim : claimed tr = true) :
    m'.world.db.HasStatus c.runId c.linearIssueId .blocked ↔ Truthful tr := by
  have hstored : ∀ {fields : Mapping String} {s : String} {status : RunStatus},
      (⟨.finish c s fields, .ok ()⟩ : CallEvent) ∈ tr → finalStatus s = some status →
        m'.world.db.HasStatus c.runId c.linearIssueId status :=
    fun hfin hs => run_row_status hcons hrun (htr _ hfin) hs honly.2
  cases hleft with
  | moveRaised hlast hfin =>
      refine iff_of_false (not_hasStatus_of_unfinished hrun byFinish_blocked (htr _ hmem)
        (honly.1 c.runId) (by rwa [hfinishes])) fun htruthful => ?_
      have hno := ((htruthful hclaim e (leaving_of_last hlast)).2 hblocked).1
      rw [hlast] at hno
      cases hno
  | finishRaised hlast hfin =>
      obtain ⟨s, fields, hfin⟩ := hfin
      obtain ⟨w, w', d, -, hans, -⟩ := answered_of_run hrun (htr _ hfin)
      have hno := (supabase_finish_raises (congrArg Prod.fst hans)).1
      rw [hblocked] at hno
      cases hno
  | own hlast hgood _ hfin =>
      obtain ⟨fields, hfin⟩ := hfin
      have hs : failStatus e (.ok ()) = "blocked" := if_pos hblocked
      refine iff_of_true (hstored hfin (by rw [hs]; rfl)) fun _ e' he' => ?_
      rw [leaving_of_good hgood] at he'
      cases he'
  | answered hlast hfirst hfin =>
      obtain ⟨fields, hfin⟩ := hfin
      cases hcarried : carriedOutcome e (eventAnswers tr) with
      | ok u =>
          have hs : failStatus e (.ok u) = "blocked" := if_pos hblocked
          rw [hcarried] at hfin
          refine iff_of_true (hstored hfin (by rw [hs]; rfl)) fun _ e' he' => ?_
          rw [leaving_of_first hlast hfirst] at he'
          cases he'
          exact ⟨hconflict, fun _ => ⟨hlast, hcarried⟩⟩
      | error e' =>
          have hno := carriedOutcome_raises hquiet hcarried
          have hs : failStatus e (.error e') = "failed" := if_neg (by simp [finishError, hno])
          rw [hcarried] at hfin
          refine iff_of_false (fun hstatus => ?_) fun htruthful => ?_
          · cases status_unique hstatus (hstored hfin (by rw [hs]; rfl))
          · have hok := ((htruthful hclaim e (leaving_of_first hlast hfirst)).2 hblocked).2
            rw [hcarried] at hok
            cases hok

/-- A turn without a claim that reports a conflict or a block claims nothing. -/
theorem unclaimed_turn {p : π} {rt : AgentRuntime} {m : Bool} {issue : Issue}
    {m₀ m' : SysConfig π α} {ls : List (SysLabel π)} {exec : List CallEvent} {e : Exc} {b : Bool}
    {records : Bool} {reason : String} (hroll : ConflictRollsBack net)
    (hcons : m₀.world.db.Consistent) (hrun : (system net).Run m₀ ls m')
    (htr : eventsOf p ls = ⟨.recover issue.identifier, .ok b⟩ ::
      (exec ++ blockRecorded records issue.identifier reason))
    (hexec : Returns (rt.execute m issue).run exec (.error e)) (hclaim : claimed exec = false)
    (he : e.isConflict = true ∨ e.isBlocked = true) :
    ClaimsNothing net p m₀ ls m' ∧ ∀ ev ∈ eventsOf p ls, ¬ IsDispatch ev := by
  obtain ⟨hrefusal, hrefused⟩ := execute_refused hexec hclaim
  have hcases : ∀ ev ∈ eventsOf p ls, ev.1 = .recover issue.identifier ∨ ev ∈ exec ∨
      ev.1 = .recordBlocked issue.identifier reason := fun ev hev => mem_turn (htr ▸ hev)
  refine ⟨⟨by rw [htr, claimed_turn, hclaim], refused_creates_no_run hroll hcons ?_⟩, ?_⟩
  · intro c ttl r hmem
    rcases hcases _ hmem with heq | hexecmem | heq
    · cases heq
    · obtain ⟨e', rfl, rfl | hconflict⟩ := hrefused c ttl r hexecmem
      · rcases he with hconflict | hblocked
        · exact ⟨_, rfl, hconflict⟩
        · obtain ⟨w, w', d, -, hans, -⟩ := answered_of_run hrun hmem
          have hno := (supabase_claim_raises (congrArg Prod.fst hans)).1
          rw [hblocked] at hno
          cases hno
      · exact ⟨e', rfl, hconflict⟩
    · cases heq
  · rintro ⟨call, r⟩ hev hdispatch
    cases call
    case dispatch c =>
      rcases hcases _ hev with heq | hexecmem | heq
      · cases heq
      · exact hrefusal _ hexecmem
      · cases heq
    all_goals exact hdispatch

/-- **A pass reports what the store holds** exactly where it is truthful. Take the turn of an
issue in any interleaving, in which the others may do anything but finish the run as blocked or
release it. What it reports is what the store holds at its end if and only if, after a claim that
went through, the exception that leaves is no conflict, and where it is a block, it did not come
from the last call, and the events it carries are accepted and stored. -/
theorem pass_reports_iff (orch : RuntimeOrchestrator) (issue : Issue) {p : π}
    {m₀ m' : SysConfig π α} {ls : List (SysLabel π)} {result : OrchestratorRunResult}
    (hroll : ConflictRollsBack net) (hcons : m₀.world.db.Consistent)
    (hrun : (system net).Run m₀ ls m') (honly : OnlyBlocker p issue.identifier ls)
    (hturn : Returns (orch.processIssue issue).run (eventsOf p ls) (.ok result)) :
    Reports net p issue.identifier m₀ ls m' result ↔ Truthful (eventsOf p ls) := by
  have hquiet := eventsRaiseQuietly_of_run hrun (p := p)
  have hconflict_ne : "completed" ≠ "conflict" ∧ "blocked" ≠ "conflict" := by decide
  have hcompleted_ne : "conflict" ≠ "completed" ∧ "blocked" ≠ "completed" := by decide
  have hblocked_ne : "completed" ≠ "blocked" ∧ "conflict" ≠ "blocked" := by decide
  generalize htr : eventsOf p ls = tr at hturn
  rcases processIssue_outcome hturn with ⟨_, ho, hresult⟩ | ⟨_, ho, -⟩
  swap
  · cases ho
  cases ho
  cases hresult with
  | @completed exec c b hexec =>
      obtain ⟨hissue, hgood, fields, hfin⟩ := execute_completes hexec
      refine iff_of_true ⟨fun h => absurd h hconflict_ne.1, fun _ => ⟨c.runId, rfl, ?_⟩,
        fun h => absurd h hblocked_ne.1⟩ fun _ e he => ?_
      · rw [← hissue]
        exact run_row_status hcons hrun (htr ▸ List.mem_cons_of_mem _ hfin) rfl
          (hissue ▸ honly.2)
      · have hgood' : firstError (answers (⟨.recover issue.identifier, .ok b⟩ :: exec)) = .ok () :=
          hgood
        rw [leaving_of_good hgood'] at he
        cases he
  | @conflict exec e b hexec hconflict =>
      rw [htr, eventsRaiseQuietly_turn] at hquiet
      rw [truthful_turn]
      by_cases hclaim : claimed exec = true
      · obtain ⟨c, -, -, hleft⟩ := execute_left hexec hclaim hquiet
        refine iff_of_false (fun hreports => ?_) (not_truthful_of_conflict hleft hclaim hconflict)
        have hno := (hreports.conflict rfl).1.1
        rw [htr, claimed_turn, hclaim] at hno
        cases hno
      · have hclaim' : claimed exec = false := by simpa using hclaim
        exact iff_of_true ⟨fun _ => unclaimed_turn hroll hcons hrun htr hexec hclaim'
          (Or.inl hconflict), fun h => absurd h hcompleted_ne.1, fun h => absurd h hblocked_ne.2⟩
          fun h => absurd h hclaim
  | @blocked exec e b hexec hconflict hblocked =>
      rw [htr, eventsRaiseQuietly_turn] at hquiet
      rw [truthful_turn]
      by_cases hclaim : claimed exec = true
      · obtain ⟨c, hmem, hissue, hleft⟩ := execute_left hexec hclaim hquiet
        have hsub : ∀ ev ∈ exec, ev ∈ eventsOf p ls := fun ev hev => by
          rw [htr]
          exact List.mem_cons_of_mem _ (List.mem_append_left _ hev)
        rw [← blocked_iff_truthful hcons hrun (hissue ▸ honly) hsub (by rw [htr, finishes_turn])
          hquiet hmem hleft hconflict hblocked hclaim, hissue]
        constructor
        · intro hreports
          rcases hreports.blocked rfl with hnothing | ⟨c', ttl, hmem', hstored⟩
          · have hno := hnothing.1
            rw [htr, claimed_turn, hclaim] at hno
            cases hno
          · rw [htr] at hmem'
            rcases mem_turn hmem' with heq | hmem' | heq
            · cases heq
            · rw [claim_unique hexec hmem hmem'] at hstored
              exact hstored
            · cases heq
        · intro hstored
          exact ⟨fun h => absurd h hconflict_ne.2, fun h => absurd h hcompleted_ne.2,
            fun _ => Or.inr ⟨c, _, hsub _ hmem, hstored⟩⟩
      · have hclaim' : claimed exec = false := by simpa using hclaim
        exact iff_of_true ⟨fun h => absurd h hconflict_ne.2, fun h => absurd h hcompleted_ne.2,
          fun _ => Or.inl (unclaimed_turn hroll hcons hrun htr hexec hclaim' (Or.inr hblocked)).1⟩
          fun h => absurd h hclaim

/-! ## A turn on its own -/

/-- Requests are answered, except that those to `agent_events` get a 409. -/
def conflicting : Net := fun call d => match call with
  | .event _ _ _ => d = .refused (.http 409)
  | _ => d = .answered

/-- A turn about to begin, over empty tables. -/
def turnStart : SysConfig Unit (Except Exc OrchestratorRunResult) :=
  ⟨fun _ => (bareOrchestrator.processIssue backendIssue).run, .start ⟨[], List.nodup_nil⟩⟩

/-- Everything goes through but the posts of events. -/
def conflictingDriver : Driver (system (π := Unit) conflicting) where
  answer := fun p call w => match call with
    | .event c kind payload =>
        let (r, db) := SupabaseStore.event (.refused (.http 409)) w.now c kind payload w.db
        (r, w.withDb db)
    | call => (gatelessScript (.ok ())).answer p call w
  answer_sound := by
    intro p call w
    cases call with
    | event => exact ⟨_, rfl, rfl, rfl⟩
    | claim | finish | recover => exact ⟨.answered, rfl, rfl, rfl⟩
    | entropy | lockRejected | dispatch | recordBlocked | startHeartbeat => exact rfl
    | joinHeartbeat => exact ⟨rfl, rfl⟩
    | readIssues => exact ⟨rfl, .refl _⟩
    | moveStatus i s => exact (gatelessScript (.ok ())).answer_sound p (.moveStatus i s) w
  surround := fun _ _ => none
  surround_sound := nofun

/-- The turn, with every event refused. -/
def conflictingRun : List (SysLabel Unit) × SysConfig Unit (Except Exc OrchestratorRunResult) :=
  conflictingDriver.run ((List.replicate 9 ()).map .inl) turnStart

/-- The turn, with everything answered. -/
def gatelessRun : List (SysLabel Unit) × SysConfig Unit (Except Exc OrchestratorRunResult) :=
  (gatelessScript (.ok ())).driver.run ((List.replicate 11 ()).map .inl) turnStart

omit [DecidableEq π] in
/-- Where all steps are calls of `p`, nobody else blocks or releases a run. -/
theorem onlyBlocker_of_turns {p : π} {i : String} {ls : List (SysLabel π)}
    (h : ∀ l ∈ ls, ∃ ev, l = .call p ev) : OnlyBlocker p i ls := by
  refine ⟨fun r l hl _ => h l hl, fun hrelease => ?_⟩
  obtain ⟨_, heq⟩ := h _ hrelease
  cases heq

theorem exists_of_result {q : Prog Call Call.Resp (Except Exc OrchestratorRunResult)}
    {status : String}
    (h : (q.result.map fun o => o.map (·.status)) = some (.ok status)) :
    ∃ result, q = .ret (.ok result) ∧ result.status = status := by
  cases q with
  | call => cases h
  | ret o =>
      cases o with
      | error e => cases h
      | ok result => exact ⟨result, rfl, Except.ok.inj (Option.some.inj h)⟩

/-- A refused event makes a turn report a conflict after it has created its run. -/
theorem conflict_reported_after_claim :
    ¬ ∀ (net : Net) (p : Unit) (orch : RuntimeOrchestrator) (issue : Issue)
      (m₀ m' : SysConfig Unit (Except Exc OrchestratorRunResult)) (ls : List (SysLabel Unit))
      (result : OrchestratorRunResult), ConflictRollsBack net → m₀.world.db.Consistent →
      (system net).Run m₀ ls m' → OnlyBlocker p issue.identifier ls →
      Returns (orch.processIssue issue).run (eventsOf p ls) (.ok result) →
      Reports net p issue.identifier m₀ ls m' result := by
  intro h
  have hroll : ConflictRollsBack conflicting := by
    intro c ttl hnet
    cases hnet
  have hrun : (system conflicting).Run turnStart conflictingRun.1 conflictingRun.2 :=
    conflictingDriver.run_sound _ _
  have honly : OnlyBlocker () backendIssue.identifier conflictingRun.1 :=
    onlyBlocker_of_turns fun l hl => by
      obtain ⟨_, -, ev, rfl⟩ := conflictingDriver.mem_run_turns hl
      exact ⟨ev, rfl⟩
  obtain ⟨result, hresult, hstatus⟩ := exists_of_result
    (by decide : ((conflictingRun.2.progs ()).result.map fun o => o.map (·.status)) =
      some (.ok "conflict"))
  have hturn := hrun.reach ()
  rw [hresult] at hturn
  have hreports := h conflicting () bareOrchestrator backendIssue turnStart conflictingRun.2
    conflictingRun.1 result hroll (consistent_empty _) hrun honly hturn
  exact absurd (hreports.conflict hstatus).1.1 (by decide)

/-- The run of a turn whose results fail the gates is reported, and stored, as blocked. -/
theorem pass_reports_iff_gates : ∃ result,
    gatelessRun.2.progs () = .ret (.ok result) ∧ result.status = "blocked" ∧
      Reports reliable () "LOL-2" turnStart gatelessRun.1 gatelessRun.2 result := by
  obtain ⟨result, hresult, hstatus⟩ := exists_of_result
    (by decide : ((gatelessRun.2.progs ()).result.map fun o => o.map (·.status)) =
      some (.ok "blocked"))
  have hrun : (system reliable).Run turnStart gatelessRun.1 gatelessRun.2 :=
    (gatelessScript (.ok ())).driver.run_sound _ _
  have honly : OnlyBlocker () backendIssue.identifier gatelessRun.1 :=
    onlyBlocker_of_turns fun l hl => by
      obtain ⟨_, -, ev, rfl⟩ := (gatelessScript (.ok ())).driver.mem_run_turns hl
      exact ⟨ev, rfl⟩
  have hturn := hrun.reach ()
  rw [hresult] at hturn
  have hquiet : leaving (eventsOf () gatelessRun.1) = none := by decide
  refine ⟨result, hresult, hstatus, (pass_reports_iff bareOrchestrator backendIssue
    (fun c ttl => nofun) (consistent_empty _) hrun honly hturn).2 ?_⟩
  intro _ e he
  rw [hquiet] at he
  cases he

end HermesRuntime
