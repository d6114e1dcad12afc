import HermesRuntime.RuntimeProof
import HermesRuntime.Supabase

/-!
# What an execution raises

The exception that leaves `execute` is one that a call after the claim was answered, or one of
the runtime's own. Its own carry no events and are no conflicts, so the answers tell which it
was.

* `RaisesPlain` — what the checks of the runtime raise, and what the store does.
* `Surfaced`, `executeBody_surfaces` — the `try` block.
* `FailEnd`, `execute_raises` — the `except` block, and the whole execution.
-/

namespace HermesRuntime

open Effects Prog Proc

/-! ## Plain exceptions -/

/-- The classes of the exceptions that the runtime raises by itself. -/
def ownNames : List String :=
  ["RuntimeError", "ExecutionBlocked", "PayloadValidationError", "TypeError", "ValueError"]

/-- An exception of the runtime, of none of the classes it tells apart. -/
structure Exc.IsPlain (e : Exc) : Prop where
  own_name : e.typeName ∈ ownNames
  not_blocked : e.isBlocked = false
  not_conflict : e.isConflict = false
  no_event : e.event = none

theorem isPlain_payloadValidationError (message : String) :
    (Exc.payloadValidationError message).IsPlain :=
  ⟨by simp [Exc.payloadValidationError, ownNames], rfl, rfl, rfl⟩

theorem isPlain_valueError (message : String) : (Exc.valueError message).IsPlain :=
  ⟨by simp [Exc.valueError, ownNames], rfl, rfl, rfl⟩

/-- What `x` raises is plain. -/
def RaisesPlain {α : Type} (x : Except Exc α) : Prop := ∀ e, x = .error e → e.IsPlain

section RaisesPlain

variable {α β : Type}

theorem raisesPlain_ok (a : α) : RaisesPlain (.ok a) := fun _ h => nomatch h

theorem raisesPlain_error {e : Exc} (h : e.IsPlain) : RaisesPlain (.error e : Except Exc α) := by
  intro e' he
  cases he
  exact h

theorem raisesPlain_bind {x : Except Exc α} {f : α → Except Exc β} (hx : RaisesPlain x)
    (hf : ∀ a, RaisesPlain (f a)) : RaisesPlain (x >>= f) := by
  intro e h
  cases x with
  | ok a => exact hf a e h
  | error e' =>
      cases h
      exact hx e rfl

theorem raisesPlain_ite {p : Prop} [Decidable p] {x y : Except Exc α} (hx : RaisesPlain x)
    (hy : RaisesPlain y) : RaisesPlain (if p then x else y) := by
  split
  · exact hx
  · exact hy

theorem raisesPlain_forM {f : α → Except Exc Unit} (hf : ∀ a, RaisesPlain (f a))
    (xs : List α) : RaisesPlain (xs.forM f) := by
  induction xs with
  | nil => exact raisesPlain_ok ()
  | cons x xs ih =>
      show RaisesPlain (f x >>= fun _ => xs.forM f)
      exact raisesPlain_bind (hf x) fun _ => ih

theorem raisesPlain_mapM {f : α → Except Exc β} (hf : ∀ a, RaisesPlain (f a))
    (xs : List α) : RaisesPlain (xs.mapM f) := by
  induction xs with
  | nil => exact raisesPlain_ok []
  | cons x xs ih =>
      rw [List.mapM_cons]
      exact raisesPlain_bind (hf x) fun _ => raisesPlain_bind ih fun _ => raisesPlain_ok _

end RaisesPlain

theorem require_raises (check : Bool) (message : String) : RaisesPlain (require check message) := by
  unfold require
  exact raisesPlain_ite (raisesPlain_ok ()) (raisesPlain_error (isPlain_payloadValidationError _))

theorem hashKey_raises (v : PyVal) : RaisesPlain v.hashKey := by
  intro e h
  unfold PyVal.hashKey at h
  split at h <;> try cases h
  split at h <;> cases h
  exact ⟨by decide, rfl, rfl, rfl⟩

theorem jsonScalar_raises (v : PyVal) : RaisesPlain (jsonScalar v) := by
  intro e h
  unfold jsonScalar at h
  split at h <;> try cases h
  split at h <;> cases h
  exact ⟨by decide, rfl, rfl, rfl⟩

theorem urlsplit_raises (url : String) : RaisesPlain (urlsplit url) := by
  have hthrow : ∀ (message : String) (f : PUnit → Except Exc SplitResult),
      RaisesPlain (throw (.valueError message) >>= f) :=
    fun _ _ => raisesPlain_error (isPlain_valueError _)
  unfold urlsplit
  refine raisesPlain_ite (hthrow _ _) (raisesPlain_ite (hthrow _ _) ?_)
  exact raisesPlain_ite (hthrow _ _) (raisesPlain_ok _)

theorem isMember_raises (v : PyVal) (names : List String) : RaisesPlain (isMember v names) :=
  raisesPlain_bind (hashKey_raises v) fun _ => raisesPlain_ok _

theorem validateHttpsUrl_raises (key : String) (v : PyVal) :
    RaisesPlain (validateHttpsUrl key v) := by
  unfold validateHttpsUrl
  split
  · exact raisesPlain_bind (urlsplit_raises _) fun _ =>
      raisesPlain_bind (require_raises _ _) fun _ => require_raises _ _
  · exact raisesPlain_error (isPlain_payloadValidationError _)

theorem validateText_raises (key : String) (v : PyVal) : RaisesPlain (validateText key v) := by
  unfold validateText
  split
  · exact raisesPlain_bind (require_raises _ _) fun _ => require_raises _ _
  · exact raisesPlain_ok ()

theorem validateEnum_raises (eventType key : String) (v : PyVal) :
    RaisesPlain (validateEnum eventType key v) := by
  have hmember : ∀ (names : List String) (check : Bool → Bool) (message : String),
      RaisesPlain (isMember v names >>= fun member => require (check member) message) :=
    fun names check message => raisesPlain_bind (isMember_raises v names) fun member =>
      require_raises (check member) message
  unfold validateEnum
  dsimp only
  split
  · refine raisesPlain_bind (isMember_raises _ _) fun _ => ?_
    split
    · exact raisesPlain_bind (require_raises _ _) fun _ => hmember _ id _
    · exact raisesPlain_bind (require_raises _ _) fun _ => raisesPlain_ok ()
  · split
    · exact hmember _ id _
    · exact raisesPlain_ok ()

theorem validateValue_raises (eventType key : String) (v : PyVal) :
    RaisesPlain (validateValue eventType key v) := by
  unfold validateValue
  refine raisesPlain_bind (require_raises _ _) fun _ => ?_
  refine raisesPlain_bind (validateText_raises key v) fun _ => ?_
  refine raisesPlain_bind (require_raises _ _) fun _ => ?_
  refine raisesPlain_bind (validateEnum_raises eventType key v) fun _ => ?_
  refine raisesPlain_bind (require_raises _ _) fun _ => ?_
  exact raisesPlain_ite (validateHttpsUrl_raises key v) (raisesPlain_ok ())

theorem validateFields_raises (eventType : String) (required optional : List String)
    (candidate : Mapping PyVal) :
    RaisesPlain (validateFields eventType required optional candidate) := by
  unfold validateFields
  refine raisesPlain_bind (require_raises _ _) fun _ => ?_
  refine raisesPlain_bind (raisesPlain_forM (fun e => raisesPlain_ite (raisesPlain_ok ())
    (validateValue_raises _ _ _)) _) fun _ => ?_
  refine raisesPlain_bind (require_raises _ _) fun _ => ?_
  exact raisesPlain_bind (require_raises _ _) fun _ => raisesPlain_ok _

/-- A payload that is refused raises a plain exception. -/
theorem validateEventPayload_raises (eventType : String) (payload : RawPayload) :
    RaisesPlain (validateEventPayload eventType payload) := by
  unfold validateEventPayload
  split
  · exact raisesPlain_error (isPlain_payloadValidationError _)
  · split
    · exact validateFields_raises _ _ _ _
    · exact validateFields_raises _ _ _ _
    · exact raisesPlain_error (isPlain_payloadValidationError _)

theorem eventKey_raises (kind : String) (payload : Mapping PyVal) :
    RaisesPlain (eventKey kind payload) := by
  unfold eventKey
  refine raisesPlain_ite ?_ ?_
  · exact raisesPlain_bind (hashKey_raises _) fun _ => raisesPlain_bind (hashKey_raises _) fun _ =>
      raisesPlain_bind (hashKey_raises _) fun _ => raisesPlain_ok _
  · refine raisesPlain_bind ?_ fun _ => raisesPlain_ok _
    exact raisesPlain_bind (raisesPlain_mapM (fun _ => raisesPlain_bind (jsonScalar_raises _)
      fun _ => raisesPlain_ok _) _) fun _ => raisesPlain_ok _

/-- So does a list of events that is refused. -/
theorem normalizeEvents_raises (seen : List EventKey) (events : List (String × RawPayload)) :
    RaisesPlain (normalizeEvents seen events) := by
  induction events generalizing seen with
  | nil => exact raisesPlain_ok []
  | cons event events ih =>
      unfold normalizeEvents
      refine raisesPlain_bind (validateEventPayload_raises _ _) fun _ => ?_
      refine raisesPlain_bind (eventKey_raises _ _) fun _ => ?_
      exact raisesPlain_ite (ih _) (raisesPlain_bind (ih _) fun _ => raisesPlain_ok _)

/-! ## What the store raises -/

theorem failure_exc (f : Failure) : f.exc.isBlocked = false ∧ f.exc.event = none := by
  unfold Failure.exc
  split
  · split <;> exact ⟨rfl, rfl⟩
  · exact ⟨rfl, rfl⟩

theorem post_raises {d : Delivery} {now : Timestamp} {op : StoreOp} {db : Db} {e : Exc}
    (h : (post d now op db).1 = .error e) : e.isBlocked = false ∧ e.event = none := by
  unfold post at h
  split at h
  · cases h
    exact failure_exc _
  · cases h
    exact failure_exc _
  · split at h
    · cases h
    · cases h
      exact failure_exc _

theorem orRaise_raises {exc e : Exc} {r : Except Exc Bool}
    (h : SupabaseStore.orRaise exc r = .error e) : e = exc ∨ r = .error e := by
  match r with
  | .ok true => cases h
  | .ok false =>
      cases h
      exact Or.inl rfl
  | .error e' =>
      cases h
      exact Or.inr rfl

theorem toJson_raises (v : PyVal) : RaisesPlain v.toJson := by
  intro e h
  unfold PyVal.toJson at h
  split at h <;> try cases h
  · exact ⟨by decide, rfl, rfl, rfl⟩
  · split at h <;> cases h
    exact ⟨by decide, rfl, rfl, rfl⟩

theorem jsonBody_raises (payload : Mapping PyVal) : RaisesPlain (jsonBody payload) := by
  have hentries : ∀ entries, RaisesPlain (convertEntries PyVal.toJson entries) := by
    intro entries
    induction entries with
    | nil => exact raisesPlain_ok []
    | cons entry entries ih =>
        unfold convertEntries
        exact raisesPlain_bind (toJson_raises _) fun _ => raisesPlain_bind ih fun _ =>
          raisesPlain_ok _
  intro e h
  unfold jsonBody at h
  split at h
  · cases h
  · rename_i heq
    cases h
    exact hentries _ _ heq

/-- `store.event` raises no block and no event error. -/
theorem supabase_event_raises {d : Delivery} {now : Timestamp} {c : ExecutionContext}
    {kind : String} {payload : Mapping PyVal} {db : Db} {e : Exc}
    (h : (SupabaseStore.event d now c kind payload db).1 = .error e) :
    e.isBlocked = false ∧ e.event = none := by
  unfold SupabaseStore.event at h
  split at h
  · rename_i heq
    cases h
    have hplain := raisesPlain_bind (validateEventPayload_raises _ _)
      (fun _ => jsonBody_raises _) e heq
    exact ⟨hplain.not_blocked, hplain.no_event⟩
  · rename_i body heq
    cases hpost : (post d now (.insertEvent ⟨c.runId, c.linearIssueId, c.agent, kind, body⟩) db).1
      with
    | ok b =>
        have hok := congrArg (Except.map fun _ => ()) hpost
        cases hok.symm.trans h
    | error e' =>
        have herror := congrArg (Except.map fun _ => ()) hpost
        cases herror.symm.trans h
        exact post_raises hpost

/-- Nor does `store.finish`. -/
theorem supabase_finish_raises {d : Delivery} {now : Timestamp} {c : ExecutionContext}
    {s : String} {fields : Mapping String} {db : Db} {e : Exc}
    (h : (SupabaseStore.finish d now c s fields db).1 = .error e) :
    e.isBlocked = false ∧ e.event = none := by
  rcases orRaise_raises h with rfl | hpost
  · exact ⟨rfl, rfl⟩
  · exact post_raises hpost

/-- Nor does `store.claim`. -/
theorem supabase_claim_raises {d : Delivery} {now : Timestamp} {c : ExecutionContext} {ttl : Int}
    {db : Db} {e : Exc} (h : (SupabaseStore.claim d now c ttl db).1 = .error e) :
    e.isBlocked = false ∧ e.event = none := by
  rcases orRaise_raises h with rfl | hpost
  · exact ⟨rfl, rfl⟩
  · exact post_raises hpost

/-! ## The answers of a trace -/

/-- The answer of a call after the claim that may raise, without its value. -/
def answerOf : CallEvent → Option (Except Exc Unit)
  | ⟨.moveStatus _ _, r⟩ | ⟨.event _ _ _, r⟩ | ⟨.finish _ _ _, r⟩ => some r
  | ⟨.dispatch _, r⟩ => some (r.map fun _ => ())
  | _ => none

/-- The answers of the calls after the claim. -/
def answers (tr : List CallEvent) : List (Except Exc Unit) := tr.filterMap answerOf

@[simp] theorem answers_nil : answers [] = [] := rfl

@[simp] theorem answers_append (tr tr' : List CallEvent) :
    answers (tr ++ tr') = answers tr ++ answers tr' := List.filterMap_append

@[simp] theorem answers_claimSteps (rt : AgentRuntime) (c : ExecutionContext)
    (drawn : Nat × Fin (2 ^ 80)) : answers (claimSteps rt c drawn) = [] := rfl

theorem mem_eventAnswers {tr : List CallEvent} {r : Except Exc Unit} :
    r ∈ eventAnswers tr ↔
      ∃ c kind payload, (⟨.event c kind payload, r⟩ : CallEvent) ∈ tr := by
  unfold eventAnswers
  rw [List.mem_filterMap]
  constructor
  · rintro ⟨⟨call, a⟩, hmem, hof⟩
    cases call <;> cases hof
    exact ⟨_, _, _, hmem⟩
  · rintro ⟨c, kind, payload, hmem⟩
    exact ⟨_, hmem, rfl⟩

theorem firstError_append {rs : List (Except Exc Unit)} (h : firstError rs = .ok ())
    (rs' : List (Except Exc Unit)) : firstError (rs ++ rs') = firstError rs' := by
  induction rs with
  | nil => rfl
  | cons r rs ih =>
      cases r with
      | ok u => exact ih h
      | error e => cases h

theorem firstError_append_error {rs : List (Except Exc Unit)} {e : Exc}
    (h : firstError rs = .error e) (rs' : List (Except Exc Unit)) :
    firstError (rs ++ rs') = .error e := by
  induction rs with
  | nil => cases h
  | cons r rs ih =>
      cases r with
      | ok u => exact ih h
      | error e' => exact h

theorem firstError_eq_ok {rs : List (Except Exc Unit)} :
    firstError rs = .ok () ↔ ∀ r ∈ rs, r = .ok () := by
  induction rs with
  | nil => exact iff_of_true rfl nofun
  | cons r rs ih =>
      rw [List.forall_mem_cons]
      cases r with
      | ok u => exact ih.trans (iff_and_self.2 fun _ => rfl)
      | error e => exact iff_of_false nofun fun h => nomatch h.1

theorem mem_of_firstError {rs : List (Except Exc Unit)} {e : Exc} (h : firstError rs = .error e) :
    .error e ∈ rs := by
  induction rs with
  | nil => cases h
  | cons r rs ih =>
      cases r with
      | ok u => exact List.mem_cons_of_mem _ (ih h)
      | error e' =>
          cases h
          exact List.mem_cons_self

/-! ## The `try` block -/

/-- What a program comes to after `tr`: all answers were good and it returns, or raises an
exception of its own; or the last answer was an exception, which it raises. -/
inductive Surfaced {α : Type} (tr : List CallEvent) : Except Exc α → Prop
  | returned (a : α) (hgood : firstError (answers tr) = .ok ()) : Surfaced tr (.ok a)
  | own (e : Exc) (hgood : firstError (answers tr) = .ok ()) (hconflict : e.isConflict = false)
      (hevent : e.event = none) (hname : e.typeName ∈ ownNames) : Surfaced tr (.error e)
  | answered (e : Exc) (good : List (Except Exc Unit)) (hgood : firstError good = .ok ())
      (hlast : answers tr = good ++ [.error e]) : Surfaced tr (.error e)

/-- `x` raises nothing but what its last call was answered and its own exceptions. -/
def Surfaces {α : Type} (x : Proc α) : Prop := ∀ tr o, Returns x.run tr o → Surfaced tr o

section Surfaces

variable {α β : Type}

theorem surfaced_append {tr tr' : List CallEvent} {o : Except Exc α}
    (hgood : firstError (answers tr) = .ok ()) (h : Surfaced tr' o) : Surfaced (tr ++ tr') o := by
  cases h with
  | returned a h => exact .returned a (by rw [answers_append, firstError_append hgood, h])
  | own e h hconflict hevent hname =>
      exact .own e (by rw [answers_append, firstError_append hgood, h]) hconflict hevent hname
  | answered e good h hlast =>
      exact .answered e (answers tr ++ good) ((firstError_append hgood _).trans h)
        (by rw [answers_append, hlast, List.append_assoc])

theorem surfaces_bind {x : Proc α} {f : α → Proc β} (hx : Surfaces x)
    (hf : ∀ a, Surfaces (f a)) : Surfaces (x >>= f) := by
  intro tr o h
  rcases returns_run_bind.1 h with ⟨tr₁, tr₂, a, rfl, h₁, h₂⟩ | ⟨e, h₁, rfl⟩
  · cases hx _ _ h₁ with
    | returned _ hgood => exact surfaced_append hgood (hf a _ _ h₂)
  · cases hx _ _ h₁ with
    | own _ hgood hconflict hevent hname => exact .own e hgood hconflict hevent hname
    | answered _ good hgood hlast => exact .answered e good hgood hlast

theorem surfaces_pure (a : α) : Surfaces (pure a : Proc α) := by
  intro tr o h
  obtain ⟨rfl, rfl⟩ := returns_pure.1 h
  exact .returned a rfl

/-- A call that may raise. -/
theorem surfaces_call {x : Proc α} {ev : Except Exc α → CallEvent}
    (hev : ∀ o, answerOf (ev o) = some (o.map fun _ => ()))
    (hx : ∀ {tr o}, Returns x.run tr o ↔ tr = [ev o]) : Surfaces x := by
  intro tr o h
  obtain rfl := hx.1 h
  have hanswers : answers [ev o] = [o.map fun _ => ()] := by simp [answers, hev]
  cases o with
  | ok a => exact .returned a (by rw [hanswers]; rfl)
  | error e => exact .answered e [] rfl hanswers

theorem surfaces_settle {x : Except Exc α} (h : RaisesPlain x) : Surfaces (settle x) := by
  intro tr o hret
  obtain ⟨rfl, rfl⟩ := returns_settle.1 hret
  cases o with
  | ok a => exact .returned a rfl
  | error e => exact .own e rfl (h e rfl).not_conflict (h e rfl).no_event (h e rfl).own_name

theorem surfaces_when {b : Bool} {x : Proc Unit} (hx : Surfaces x) : Surfaces (when b x) := by
  cases b
  · exact surfaces_pure ()
  · exact hx

theorem surfaces_raiseUnless {check : Bool} {e : Exc} (hconflict : e.isConflict = false)
    (hevent : e.event = none) (hname : e.typeName ∈ ownNames) :
    Surfaces (raiseUnless check e) := by
  intro tr o h
  unfold raiseUnless at h
  split at h
  · obtain ⟨rfl, rfl⟩ := returns_pure.1 h
    exact .returned () rfl
  · obtain ⟨rfl, rfl⟩ := returns_throw.1 h
    exact .own e rfl hconflict hevent hname

end Surfaces

theorem surfaces_moveStatus (i s : String) : Surfaces (moveStatus i s) :=
  surfaces_call (fun o => by cases o <;> rfl) returns_moveStatus

theorem surfaces_event (c : ExecutionContext) (kind : String) (payload : Mapping PyVal) :
    Surfaces (event c kind payload) :=
  surfaces_call (fun o => by cases o <;> rfl) returns_event

theorem surfaces_join (c : ExecutionContext) : Surfaces (perform (.joinHeartbeat c)) := by
  intro tr o h
  obtain ⟨r, rfl, rfl⟩ := returns_perform.1 h
  exact .returned r rfl

theorem surfaces_postEvents (c : ExecutionContext) (events : List (String × Mapping PyVal)) :
    Surfaces (postEvents c events) := by
  induction events with
  | nil => exact surfaces_pure ()
  | cons event events ih => exact surfaces_bind (surfaces_event _ _ _) fun _ => ih

theorem surfaces_persistEvents (c : ExecutionContext) (events : List (String × RawPayload)) :
    Surfaces (persistEvents c events) :=
  surfaces_bind (surfaces_settle (normalizeEvents_raises _ _)) (surfaces_postEvents c)

/-- **What the `try` block raises** is its last answer, or an exception of its own. -/
theorem executeBody_surfaces (m : Bool) (issue : Issue) (c : ExecutionContext) :
    Surfaces (executeBody m issue c) := by
  refine surfaces_bind ?_ fun result => ?_
  · refine surfaces_bind (surfaces_when (surfaces_moveStatus _ _)) fun _ => ?_
    refine surfaces_bind (surfaces_settle (validateEventPayload_raises _ _)) fun _ => ?_
    refine surfaces_bind (surfaces_event _ _ _) fun _ => ?_
    refine surfaces_bind (surfaces_call (fun _ => rfl) returns_dispatch) fun result => ?_
    refine surfaces_bind (surfaces_join c) fun outcomes => ?_
    refine surfaces_bind (surfaces_persistEvents c _) fun _ => ?_
    refine surfaces_bind (surfaces_raiseUnless rfl rfl (by decide)) fun _ => ?_
    exact surfaces_bind (surfaces_raiseUnless rfl rfl (by decide)) fun _ => surfaces_pure _
  · refine surfaces_bind (surfaces_when (surfaces_moveStatus _ _)) fun _ => ?_
    refine surfaces_bind (surfaces_call (fun o => ?_) returns_finish) fun _ => surfaces_pure _
    cases o <;> rfl

/-! ## The `except` block -/

/-- The status the `except` block finishes with. -/
def failStatus (exc : Exc) (persisted : Except Exc Unit) : String :=
  if (finishError exc persisted).isBlocked then "blocked" else "failed"

/-- The move of the `except` block, when it goes through. -/
def failMoves (m : Bool) (i : String) (exc : Exc) (persisted : Except Exc Unit) :
    List CallEvent :=
  movedTo ((finishError exc persisted).isBlocked && m) i "Blocked"

theorem answers_failMoves (m : Bool) (i : String) (exc : Exc) (persisted : Except Exc Unit) :
    firstError (answers (failMoves m i exc persisted)) = .ok () := by
  unfold failMoves movedTo
  split <;> rfl

/-- How the `except` block ends: its move raises, its finish raises, or it raises again what it
caught. -/
inductive FailEnd (m : Bool) (i : String) (c : ExecutionContext) (exc : Exc)
    (persisted : Except Exc Unit) : List CallEvent → Exc → Prop
  | moveRaised (e : Exc) (hblocked : (finishError exc persisted).isBlocked = true) :
      FailEnd m i c exc persisted [⟨.moveStatus i "Blocked", .error e⟩] e
  | finishRaised (e : Exc) :
      FailEnd m i c exc persisted (failMoves m i exc persisted ++
        [⟨.finish c (failStatus exc persisted) (errorFields (errorType exc persisted)),
          .error e⟩]) e
  | finished :
      FailEnd m i c exc persisted (failMoves m i exc persisted ++
        [⟨.finish c (failStatus exc persisted) (errorFields (errorType exc persisted)),
          .ok ()⟩]) exc

/-- Without events there is nothing to persist. -/
theorem carriedOutcome_none {exc : Exc} (h : exc.event = none) (rs : List (Except Exc Unit)) :
    carriedOutcome exc rs = .ok () := by
  unfold carriedOutcome
  rw [h]

theorem posts_of_no_event {c : ExecutionContext} {exc : Exc} {posts : List CallEvent}
    {o : Except Exc (Except Exc Unit)} (h : Returns (persistCarried c exc).run posts o)
    (hevent : exc.event = none) : posts = [] := by
  unfold persistCarried at h
  rw [hevent] at h
  exact (returns_pure.1 h).1

theorem failIssue_raises {m : Bool} {issue : Issue} {c : ExecutionContext} {exc e : Exc}
    {persisted : Except Exc Unit} {tr : List CallEvent}
    (h : Returns (failIssue m issue c exc persisted).run tr (.error e)) :
    FailEnd m issue.identifier c exc persisted tr e := by
  unfold failIssue at h
  rcases returns_run_bind.1 h with ⟨tr₁, tr₂, _, rfl, hmove, h₁⟩ | ⟨e', hmove, ho⟩
  · rcases returns_when_move hmove with ⟨rfl, -⟩ | ⟨_, -, -, ho⟩
    swap
    · cases ho
    rcases returns_run_bind.1 h₁ with ⟨tr₃, tr₄, u, rfl, hfin, h₂⟩ | ⟨e', hfin, ho⟩
    · obtain rfl := returns_finish.1 hfin
      obtain ⟨rfl, ho⟩ := returns_throw.1 h₂
      cases ho
      rw [List.append_nil]
      exact .finished
    · obtain rfl := returns_finish.1 hfin
      cases ho
      exact .finishRaised e
  · cases ho
    rcases returns_when_move hmove with ⟨-, ho⟩ | ⟨e', hmoves, rfl, ho⟩
    · cases ho
    · cases ho
      exact .moveRaised e (Bool.and_eq_true_iff.1 hmoves).1

/-- **What a claimed execution raises**: the `try` block raises, the events of its exception are
persisted, and the `except` block ends. -/
theorem execute_raises {rt : AgentRuntime} {m : Bool} {issue : Issue} {tr : List CallEvent}
    {e : Exc} (h : Returns (rt.execute m issue).run tr (.error e)) (hclaim : claimed tr = true) :
    ∃ c drawn body exc outcomes posts tail, tr = claimSteps rt c drawn ++ body ++
        ⟨.joinHeartbeat c, outcomes⟩ :: (posts ++ tail) ∧ IsContextOf issue c ∧
      Returns (executeBody m issue c).run body (.error exc) ∧
      Returns (persistCarried c exc).run posts (.ok (carriedOutcome exc (eventAnswers posts))) ∧
      FailEnd m issue.identifier c exc (carriedOutcome exc (eventAnswers posts)) tail e := by
  rcases execute_claims h with ⟨hrefused, -⟩ | ⟨c, drawn, own, rfl, hcontext, hown⟩
  · rw [not_claimed_of_refused hrefused] at hclaim
    cases hclaim
  rcases returns_run_tryCatch.1 hown with ⟨_, -, ho⟩ | ⟨body, rest, exc, rfl, hbody, hrest⟩
  · cases ho
  unfold executeFailed at hrest
  rcases returns_run_bind.1 hrest with ⟨_, _, outcomes, rfl, hjoin, h₁⟩ | ⟨_, hjoin, -⟩
  swap
  · obtain ⟨_, -, ho⟩ := returns_perform.1 hjoin
    cases ho
  obtain ⟨outcomes, rfl, -⟩ := returns_perform.1 hjoin
  rcases returns_run_bind.1 h₁ with ⟨posts, tail, persisted, rfl, hpers, h₂⟩ | ⟨_, hpers, -⟩
  swap
  · cases persistCarried_returns hpers
  have hpersisted := persistCarried_returns hpers
  rw [hpersisted] at hpers
  rw [Except.ok.injEq] at hpersisted
  rw [hpersisted] at h₂
  exact ⟨c, drawn, body, exc, outcomes, posts, tail, by simp, hcontext, hbody, hpers,
    failIssue_raises h₂⟩

end HermesRuntime
