import HermesRuntime.Lib.Alike
import HermesRuntime.Runtime

/-!
# Exception text does not reach the store

Exceptions of the dispatcher, of Linear or of the store may quote tokens. The `except` block of
`execute` records the class of an exception, or the `error_type` an `ExecutionEventError` carries,
and never its message: two executions that are told the same apart from messages make the same
calls.

* `Exc.SameClass`, `SameAnswer` — exceptions and answers that differ in messages only.
* `execute_alike` — two executions go on alike, also where the messages of their validators
  differ.
* `exception_text_unseen` — so their calls are the same.
-/

namespace HermesRuntime

open Effects Prog Proc

/-! ## What may differ -/

/-- The exceptions differ in their messages only. -/
def Exc.SameClass (e e' : Exc) : Prop :=
  e.typeName = e'.typeName ∧ e.isBlocked = e'.isBlocked ∧ e.isConflict = e'.isConflict ∧
    e.event = e'.event

theorem Exc.SameClass.refl (e : Exc) : e.SameClass e := ⟨rfl, rfl, rfl, rfl⟩

/-- The same was returned, or exceptions were raised that differ in their messages only. -/
abbrev SameText {α : Type} : Except Exc α → Except Exc α → Prop := SameOutcome Exc.SameClass Eq

theorem SameText.refl {α : Type} (o : Except Exc α) : SameText o o := by
  cases o with
  | ok a => exact .ok rfl
  | error e => exact .error (.refl e)

/-- The call is answered alike: what draws a run id draws the same one, and every exception
differs in its message only. -/
def SameAnswer : (c : Call) → c.Resp → c.Resp → Prop
  | .entropy, (millis, random), (millis', random') =>
      newRunId millis random = newRunId millis' random'
  | .startHeartbeat _ _, _, _ => True
  | .joinHeartbeat _, r, r' => List.Forall₂ SameText r r'
  | .dispatch _, r, r' => SameText r r'
  | .recover _, r, r' => SameText r r'
  | .readIssues, r, r' => SameText r r'
  | .claim _ _, r, r' | .lockRejected _ _, r, r' | .moveStatus _ _, r, r' | .event _ _ _, r, r'
  | .finish _ _ _, r, r' | .recordBlocked _ _, r, r' => SameText r r'

/-! ## Both go on alike -/

/-- Programs that make the same calls as long as these are answered alike. -/
abbrev AlikeProc {α β : Type} (R : α → β → Prop) (x : Proc α) (x' : Proc β) : Prop :=
  Alike SameAnswer (SameOutcome Exc.SameClass R) x.run x'.run

section AlikeProc

variable {α : Type}

theorem alike_settle {x x' : Except Exc α} (h : SameText x x') :
    AlikeProc Eq (settle x) (settle x') := .ret h

theorem alike_same_pure (a : α) : AlikeProc Eq (pure a) (pure a) := .ret (.ok rfl)

/-- A call that may raise is alike itself. -/
theorem alike_call {c : Call} {k : c.Resp → Except Exc α}
    (hk : ∀ r r', SameAnswer c r r' → SameText (k r) (k r')) :
    Alike SameAnswer SameText (.call c fun r => .ret (k r)) (.call c fun r => .ret (k r)) :=
  .call fun r r' hr => .ret (hk r r' hr)

theorem alike_claim (context : ExecutionContext) (ttl : Int) :
    AlikeProc Eq (claim context ttl) (claim context ttl) := alike_call fun _ _ h => h

theorem alike_lockRejected (context : ExecutionContext) (reason : String) :
    AlikeProc Eq (lockRejected context reason) (lockRejected context reason) :=
  alike_call fun _ _ h => h

theorem alike_moveStatus (issueId status : String) :
    AlikeProc Eq (moveStatus issueId status) (moveStatus issueId status) :=
  alike_call fun _ _ h => h

theorem alike_event (context : ExecutionContext) (kind : String) (payload : Mapping PyVal) :
    AlikeProc Eq (event context kind payload) (event context kind payload) :=
  alike_call fun _ _ h => h

theorem alike_dispatch (context : ExecutionContext) :
    AlikeProc Eq (dispatch context) (dispatch context) := alike_call fun _ _ h => h

theorem alike_finish (context : ExecutionContext) (status : String) (fields : Mapping String) :
    AlikeProc Eq (finish context status fields) (finish context status fields) :=
  alike_call fun _ _ h => h

theorem alike_perform (c : Call) : AlikeProc (SameAnswer c) (perform c) (perform c) :=
  .call fun _ _ hr => .ret (.ok hr)

/-- Sequencing after a result that is the same. -/
theorem alike_bind {β : Type} {R : β → β → Prop} {x x' : Proc α} {f f' : α → Proc β}
    (hx : AlikeProc Eq x x') (hf : ∀ a, AlikeProc R (f a) (f' a)) :
    AlikeProc R (x >>= f) (x' >>= f') :=
  alike_run_bind hx fun a b h => by
    cases h
    exact hf a

theorem alike_when {b : Bool} {x x' : Proc Unit} (h : AlikeProc Eq x x') :
    AlikeProc Eq (when b x) (when b x') := by
  unfold Proc.when
  split
  · exact h
  · exact alike_same_pure ()

theorem alike_raiseUnless (check : Bool) (exc : Exc) :
    AlikeProc Eq (raiseUnless check exc) (raiseUnless check exc) := by
  unfold raiseUnless
  split
  · exact alike_same_pure ()
  · exact alike_throw (.refl exc)

/-- What is observed is related as outcomes are. -/
theorem alike_observe {x x' : Proc α} (h : AlikeProc Eq x x') :
    AlikeProc SameText (observe x) (observe x') :=
  h.bind fun _ _ ho => .ret (.ok ho)

end AlikeProc

theorem sameText_bind {α β : Type} {x x' : Except Exc α} {f f' : α → Except Exc β}
    (hx : SameText x x') (hf : ∀ a, SameText (f a) (f' a)) : SameText (x >>= f) (x' >>= f') := by
  cases hx with
  | ok h =>
      cases h
      exact hf _
  | error h => exact .error h

/-- Whether a heartbeat failed does not depend on messages. -/
theorem heartbeatErrors_isEmpty {answers answers' : List (Except Exc Bool)}
    (h : List.Forall₂ SameText answers answers') :
    (heartbeatErrors answers).isEmpty = (heartbeatErrors answers').isEmpty := by
  induction h with
  | nil => rfl
  | @cons r r' _ _ hr _ ih =>
      cases hr with
      | error _ => rfl
      | @ok b _ heq =>
          cases heq
          cases b with
          | true => exact ih
          | false => rfl

theorem postEvents_alike (context : ExecutionContext) (events : List (String × Mapping PyVal)) :
    AlikeProc Eq (postEvents context events) (postEvents context events) := by
  induction events with
  | nil => exact alike_same_pure ()
  | cons ev events ih => exact alike_bind (alike_event context ev.1 ev.2) fun _ => ih

/-! ## `execute` -/

/-- The recorded exception may switch to another one; its class is the same in both. -/
theorem finishError_sameClass {exc exc' : Exc} (he : exc.SameClass exc')
    {persisted persisted' : Except Exc Unit} (hp : SameText persisted persisted') :
    (finishError exc persisted).SameClass (finishError exc' persisted') := by
  cases hp with
  | ok _ => exact he
  | error h => exact h

theorem errorType_same {exc exc' : Exc} (he : exc.SameClass exc')
    {persisted persisted' : Except Exc Unit} (hp : SameText persisted persisted') :
    errorType exc persisted = errorType exc' persisted' := by
  have hclass := finishError_sameClass he hp
  unfold errorType
  cases hp with
  | error h => exact h.1
  | ok _ =>
      rw [he.2.2.2]
      cases exc'.event with
      | none => exact hclass.1
      | some ev => rfl

theorem failIssue_alike (hasMove : Bool) (issue : Issue) (context : ExecutionContext)
    {exc exc' : Exc} (he : exc.SameClass exc') {persisted persisted' : Except Exc Unit}
    (hp : SameText persisted persisted') :
    AlikeProc Eq (failIssue hasMove issue context exc persisted)
      (failIssue hasMove issue context exc' persisted') := by
  unfold failIssue
  rw [errorType_same he hp, (finishError_sameClass he hp).2.1]
  refine alike_bind (alike_when (alike_moveStatus _ _)) fun _ => ?_
  exact alike_bind (alike_finish _ _ _) fun _ => alike_throw he

/-- A conflict is one in both executions. -/
theorem claimIssue_alike (rt : AgentRuntime) (context : ExecutionContext) :
    AlikeProc Eq (claimIssue rt context) (claimIssue rt context) := by
  refine alike_run_tryCatch (alike_claim _ _) fun exc exc' he => ?_
  rw [he.2.2.1]
  exact alike_bind (alike_when (alike_lockRejected _ _)) fun _ => alike_throw he

section Execute

variable {validate validate' : Validator}
  (hv : ∀ kind payload, SameText (validate kind payload) (validate' kind payload))

include hv

theorem normalizeEvents_sameText (seen : List EventKey) (events : List (String × RawPayload)) :
    SameText (normalizeEvents seen events validate) (normalizeEvents seen events validate') := by
  induction events generalizing seen with
  | nil => exact .ok rfl
  | cons ev events ih =>
      obtain ⟨kind, payload⟩ := ev
      refine sameText_bind (hv kind payload) fun normalized => ?_
      refine sameText_bind (.refl (eventKey kind normalized)) fun key => ?_
      split
      · exact ih seen
      · exact sameText_bind (ih (key :: seen)) fun rest => .ok rfl

theorem persistEvents_alike (context : ExecutionContext) (events : List (String × RawPayload)) :
    AlikeProc Eq (persistEvents context events validate)
      (persistEvents context events validate') :=
  alike_bind (alike_settle (normalizeEvents_sameText hv [] events)) fun normalized =>
    postEvents_alike context normalized

theorem dispatchIssue_alike (hasMove : Bool) (issue : Issue) (context : ExecutionContext) :
    AlikeProc Eq (dispatchIssue hasMove issue context validate)
      (dispatchIssue hasMove issue context validate') := by
  refine alike_bind (alike_when (alike_moveStatus _ _)) fun _ => ?_
  refine alike_bind (alike_settle (hv _ _)) fun payload => ?_
  refine alike_bind (alike_event _ _ _) fun _ => ?_
  refine alike_bind (alike_dispatch context) fun result => ?_
  refine alike_run_bind (alike_perform _) fun outcomes outcomes' houtcomes => ?_
  refine alike_bind (persistEvents_alike hv context result.events) fun _ => ?_
  rw [heartbeatErrors_isEmpty houtcomes]
  refine alike_bind (alike_raiseUnless _ _) fun _ => ?_
  exact alike_bind (alike_raiseUnless _ _) fun _ => alike_same_pure result

theorem executeBody_alike (hasMove : Bool) (issue : Issue) (context : ExecutionContext) :
    AlikeProc Eq (executeBody hasMove issue context validate)
      (executeBody hasMove issue context validate') := by
  refine alike_bind (dispatchIssue_alike hv hasMove issue context) fun result => ?_
  refine alike_bind (alike_when (alike_moveStatus _ _)) fun _ => ?_
  exact alike_bind (alike_finish _ _ _) fun _ => alike_same_pure context

/-- What is persisted of an exception is what it carries. -/
theorem persistCarried_alike (context : ExecutionContext) {exc exc' : Exc}
    (he : exc.SameClass exc') :
    AlikeProc SameText (persistCarried context exc validate)
      (persistCarried context exc' validate') := by
  unfold persistCarried
  rw [he.2.2.2]
  cases exc'.event with
  | none => exact alike_pure (.refl _)
  | some ev => exact alike_observe (persistEvents_alike hv context ev.events)

theorem executeFailed_alike (hasMove : Bool) (issue : Issue) (context : ExecutionContext)
    {exc exc' : Exc} (he : exc.SameClass exc') :
    AlikeProc Eq (executeFailed hasMove issue context exc validate)
      (executeFailed hasMove issue context exc' validate') := by
  refine alike_run_bind (alike_perform _) fun _ _ _ => ?_
  refine alike_run_bind (persistCarried_alike hv context he) fun _ _ hp => ?_
  exact failIssue_alike hasMove issue context he hp

/-- **The two executions go on alike.** -/
theorem execute_alike (rt : AgentRuntime) (hasMove : Bool) (issue : Issue) :
    AlikeProc Eq (rt.execute hasMove issue validate) (rt.execute hasMove issue validate') := by
  refine alike_bind (alike_settle (.refl _)) fun ⟨agent, risk, mode, environment⟩ => ?_
  refine alike_run_bind (alike_perform .entropy) fun id id' hid => ?_
  obtain ⟨millis, random⟩ := id
  obtain ⟨millis', random'⟩ := id'
  have hsame : newRunId millis random = newRunId millis' random' := hid
  dsimp only
  rw [hsame]
  refine alike_bind (claimIssue_alike rt _) fun _ => ?_
  refine alike_run_bind (alike_perform _) fun _ _ _ => ?_
  exact alike_run_tryCatch (executeBody_alike hv hasMove issue _) fun _ _ he =>
    executeFailed_alike hv hasMove issue _ he

end Execute

/-- **Exception text does not reach the store.** Two executions of one issue that are answered the
same, but for the messages of exceptions and of the validator, make the same calls with the same
arguments, in the same order, and end alike; stopped in the middle, one has made the first calls
of the other. -/
theorem exception_text_unseen {validate validate' : Validator}
    (hv : ∀ kind payload, SameText (validate kind payload) (validate' kind payload))
    (rt : AgentRuntime) (hasMove : Bool) (issue : Issue) :
    (∀ tr tr' o o', Returns (rt.execute hasMove issue validate).run tr o →
      Returns (rt.execute hasMove issue validate').run tr' o' →
      AnsweredAlike SameAnswer tr tr' → tr.map (·.1) = tr'.map (·.1) ∧ SameText o o') ∧
    (∀ tr tr' q q', Reach (rt.execute hasMove issue validate).run tr q →
      Reach (rt.execute hasMove issue validate').run tr' q' →
      AnsweredAlike SameAnswer tr tr' →
        tr.map (·.1) <+: tr'.map (·.1) ∨ tr'.map (·.1) <+: tr.map (·.1)) := by
  have halike := execute_alike hv rt hasMove issue
  exact ⟨fun _ _ _ _ h h' hanswers => halike.calls_eq h h' hanswers,
    fun _ _ _ _ h h' hanswers => halike.calls_prefix h h' hanswers⟩

/-- A dispatcher that quotes a token. -/
def quoting (token : String) : (c : Call) → c.Resp
  | .entropy => (0, 0)
  | .startHeartbeat _ _ => ()
  | .joinHeartbeat _ => []
  | .dispatch _ => .error (.runtimeError token)
  | .recover _ => .ok true
  | .readIssues => .ok []
  | .claim _ _ | .lockRejected _ _ | .moveStatus _ _ | .event _ _ _ | .finish _ _ _
  | .recordBlocked _ _ => .ok ()

theorem quoting_sameAnswer (token token' : String) (c : Call) :
    SameAnswer c (quoting token c) (quoting token' c) := by
  cases c with
  | entropy => exact rfl
  | startHeartbeat => trivial
  | joinHeartbeat => exact List.Forall₂.nil
  | dispatch => exact .error ⟨rfl, rfl, rfl, rfl⟩
  | recover => exact .ok rfl
  | readIssues => exact .ok rfl
  | _ => exact .ok rfl

/-- Whatever token it quotes, the calls are the same. -/
theorem quoting_same_calls :
    (answerWith (quoting "ghp_1") (AgentRuntime.ofStore.execute true qaIssue).run).1.map (·.1) =
      (answerWith (quoting "ghp_2") (AgentRuntime.ofStore.execute true qaIssue).run).1.map
        (·.1) := by
  have hv : ∀ kind payload,
      SameText (validateEventPayload kind payload) (validateEventPayload kind payload) :=
    fun _ _ => .refl _
  have hmain := (exception_text_unseen hv AgentRuntime.ofStore true qaIssue).1
  exact (hmain _ _ _ _ (returns_answerWith _ _) (returns_answerWith _ _)
    (answeredAlike_answerWith (quoting_sameAnswer _ _) _ _)).1

end HermesRuntime
