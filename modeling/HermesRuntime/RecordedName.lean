import HermesRuntime.Closing
import HermesRuntime.Raising

/-!
# The name a run fails with

A run that does not complete is finished with a name: the class of the exception that stopped it,
or the `error_type` that this one carries. It can be told from the exceptions that the calls of
the execution were answered, since those the runtime raises by itself have fixed names.

* `raised` — the exceptions among the answers of a trace.
* `NamePasses` — the name passes a check, read off these exceptions.
* `recordedName_iff` — the name of a finish passes the check exactly then.
-/

namespace HermesRuntime

open Effects Prog Proc

/-! ## What the calls raised -/

/-- The exception of an answer. -/
def errorOf : Except Exc Unit → Option Exc
  | .error e => some e
  | .ok _ => none

/-- The exceptions that the calls after the claim were answered. -/
def raised (tr : List CallEvent) : List Exc := (answers tr).filterMap errorOf

@[simp] theorem raised_append (tr tr' : List CallEvent) :
    raised (tr ++ tr') = raised tr ++ raised tr' := by
  rw [raised, answers_append, List.filterMap_append]
  rfl

theorem filterMap_errorOf {rs : List (Except Exc Unit)} (h : firstError rs = .ok ()) :
    rs.filterMap errorOf = [] := by
  refine List.filterMap_eq_nil_iff.2 fun r hr => ?_
  rw [firstError_eq_ok.1 h r hr]
  rfl

theorem firstError_eventAnswers {tr : List CallEvent} (h : firstError (answers tr) = .ok ()) :
    firstError (eventAnswers tr) = .ok () := by
  refine firstError_eq_ok.2 fun r hr => firstError_eq_ok.1 h r ?_
  obtain ⟨c, kind, payload, hmem⟩ := mem_eventAnswers.1 hr
  exact List.mem_filterMap.2 ⟨_, hmem, rfl⟩

theorem raised_of_good {tr : List CallEvent} (h : firstError (answers tr) = .ok ()) :
    raised tr = [] := filterMap_errorOf h

/-- A block raises what its last call was answered, or an exception of the runtime's own. -/
theorem raised_of_surfaced {α : Type} {tr : List CallEvent} {e : Exc}
    (h : Surfaced tr (.error e : Except Exc α)) :
    raised tr = [e] ∨ raised tr = [] ∧ e.event = none ∧ e.typeName ∈ ownNames := by
  cases h with
  | own _ hgood _ hevent hname => exact Or.inr ⟨raised_of_good hgood, hevent, hname⟩
  | answered _ good hgood hlast =>
      left
      rw [raised, hlast, List.filterMap_append, filterMap_errorOf hgood]
      rfl

/-- The exception carries events that `_persist_events` refuses. -/
def Exc.EventsRefused (e : Exc) : Prop :=
  ∃ ev, e.event = some ev ∧ ¬ ∃ normalized, normalizeEvents [] ev.events = .ok normalized

/-- Persisting the events of an exception goes through, or raises what a post was answered, or
refuses them. -/
theorem raised_of_persisted {c : ExecutionContext} {exc : Exc} {posts : List CallEvent}
    {persisted : Except Exc Unit} (h : Returns (persistCarried c exc).run posts (.ok persisted)) :
    (persisted = .ok () ∧ raised posts = [] ∧ ¬ exc.EventsRefused) ∨
      ∃ e, persisted = .error e ∧ exc.event ≠ none ∧
        (raised posts = [e] ∨ raised posts = [] ∧ e.typeName ∈ ownNames ∧ exc.EventsRefused) := by
  cases hevent : exc.event with
  | none =>
      obtain rfl := posts_of_no_event h hevent
      have hpersisted := Except.ok.inj (persistCarried_returns h)
      rw [carriedOutcome_none hevent] at hpersisted
      refine Or.inl ⟨hpersisted, rfl, ?_⟩
      rintro ⟨ev, hsome, -⟩
      rw [hevent] at hsome
      cases hsome
  | some ev =>
      unfold persistCarried at h
      rw [hevent] at h
      obtain ⟨tr, _, o, rfl, hpers, hret⟩ := returns_bind.1 h
      obtain ⟨rfl, ho⟩ := returns_ret.1 hret
      cases ho
      rw [List.append_nil]
      have hout := persistEvents_returns hpers
      have hsurfaced := surfaces_persistEvents c ev.events _ _ hpers
      cases hnorm : normalizeEvents [] ev.events with
      | error e =>
          rw [hnorm] at hout
          subst hout
          refine Or.inr ⟨e, rfl, nofun, (raised_of_surfaced hsurfaced).imp_right ?_⟩
          rintro ⟨hnil, -, hname⟩
          exact ⟨hnil, hname, ev, hevent, fun ⟨normalized, hok⟩ => nomatch hnorm.symm.trans hok⟩
      | ok normalized =>
          have haccepted : ¬ exc.EventsRefused := by
            rintro ⟨ev', hev', hrefused⟩
            cases hevent.symm.trans hev'
            exact hrefused ⟨normalized, hnorm⟩
          rw [hnorm] at hout
          cases persisted with
          | ok u =>
              cases hsurfaced with
              | returned _ hgood => exact Or.inl ⟨rfl, raised_of_good hgood, haccepted⟩
          | error e =>
              refine Or.inr ⟨e, rfl, nofun, Or.inl ?_⟩
              cases hsurfaced with
              | answered _ good hgood hlast =>
                  rw [raised, hlast, List.filterMap_append, filterMap_errorOf hgood]
                  rfl
              | own _ hgood =>
                  rw [firstError_eventAnswers hgood] at hout
                  cases hout

/-! ## The name -/

/-- The name of an exception: its class, or the `error_type` it carries. -/
def Exc.name (e : Exc) : String :=
  match e.event with
  | some ev => ev.errorType
  | none => e.typeName

theorem errorType_ok (exc : Exc) : errorType exc (.ok ()) = exc.name := by
  unfold errorType Exc.name
  cases exc.event <;> rfl

theorem errorType_error (exc e : Exc) : errorType exc (.error e) = e.typeName := rfl

/-- The name that a run is finished with passes `P`, where its calls raised these exceptions. The
first one stopped the execution; what comes after was raised by posting the events it carries. -/
def NamePasses (P : String → Prop) : List Exc → Prop
  | [] => True
  | [e] => e.EventsRefused ∨ P e.name
  | _ :: e :: _ => P e.typeName

/-- The name that the `except` block records passes a check that the runtime's own pass. -/
theorem namePasses_iff {P : String → Prop} (hown : ∀ name ∈ ownNames, P name)
    {c : ExecutionContext} {exc : Exc} {body posts : List CallEvent} {persisted : Except Exc Unit}
    (hbody : Surfaced body (.error exc : Except Exc ExecutionContext))
    (hposts : Returns (persistCarried c exc).run posts (.ok persisted)) :
    P (errorType exc persisted) ↔ NamePasses P (raised body ++ raised posts) := by
  rcases raised_of_surfaced hbody with hbody | ⟨hbody, hevent, hname⟩
  · rw [hbody]
    rcases raised_of_persisted hposts with ⟨rfl, hposts, haccepted⟩ | ⟨e, rfl, -, hposts⟩
    · rw [hposts, errorType_ok]
      exact (or_iff_right haccepted).symm
    · rw [errorType_error]
      rcases hposts with hposts | ⟨hposts, hname, hrefused⟩
      · rw [hposts]
        exact Iff.rfl
      · rw [hposts]
        exact iff_of_true (hown _ hname) (Or.inl hrefused)
  · -- An exception of the runtime's own carries no events.
    rcases raised_of_persisted hposts with ⟨rfl, hposts, -⟩ | ⟨_, -, hsome, -⟩
    · rw [hbody, hposts, errorType_ok]
      refine iff_of_true ?_ trivial
      rw [Exc.name, hevent]
      exact hown _ hname
    · exact absurd hevent hsome

/-! ## A finish with a name -/

theorem errorFields_inj {name name' : String} (h : errorFields name = errorFields name') :
    name = name' := by
  have hentries := congrArg AList.entries h
  cases hentries
  rfl

/-- The calls that are no finish as `s`. -/
def otherCalls (s : String) (tr : List CallEvent) : List CallEvent :=
  tr.filter fun ev => (finishOf ev).map Prod.fst ≠ some s

/-- The `try` block only finishes as completed. -/
theorem body_finishes {m : Bool} {issue : Issue} {c : ExecutionContext} {body : List CallEvent}
    {o : Except Exc ExecutionContext} (h : BodyTrace m issue c body o) :
    ∀ sr ∈ finishes body, sr.1 = "completed" := by
  rcases (bodyTrace_finishes h).2 with ⟨hnil, -⟩ | ⟨_, _, r, -, hone, -⟩
  · rw [hnil]
    exact nofun
  · rw [hone]
    exact List.forall_mem_singleton.2 rfl

/-- An execution that finishes otherwise has claimed a run, and raises. -/
theorem raises_of_finish {rt : AgentRuntime} {m : Bool} {issue : Issue} {tr : List CallEvent}
    {o : Except Exc ExecutionContext} (h : Returns (rt.execute m issue).run tr o)
    {c : ExecutionContext} {s : String} {fields : Mapping String} {r : Except Exc Unit}
    (hev : (⟨.finish c s fields, r⟩ : CallEvent) ∈ tr) (hs : s ≠ "completed") :
    claimed tr = true ∧ ∃ e, o = .error e := by
  rcases execute_returns h with ⟨hrefused, -⟩ | ⟨c', drawn, body, rest, rfl, -, hends⟩
  · exact (hrefused _ hev).elim
  refine ⟨by simp [claimed, claimSteps], ?_⟩
  rcases hends with ⟨c'', rfl, rfl, hbody⟩ | ⟨e, -, hfail⟩
  · have hfin := mem_finishes.2 ⟨c, fields, hev⟩
    rw [List.append_nil, finishes_append, finishes_claimSteps, List.nil_append] at hfin
    exact absurd (body_finishes hbody _ hfin) hs
  · cases hfail <;> exact ⟨_, rfl⟩

/-- What a claimed execution comes to that finishes otherwise: only its last call does. -/
theorem execute_last_finish {rt : AgentRuntime} {m : Bool} {issue : Issue} {tr : List CallEvent}
    {e : Exc} (h : Returns (rt.execute m issue).run tr (.error e)) (hclaim : claimed tr = true)
    {c : ExecutionContext} {s : String} {fields : Mapping String} {r : Except Exc Unit}
    (hev : (⟨.finish c s fields, r⟩ : CallEvent) ∈ tr) (hs : s ≠ "completed") :
    ∃ before c' exc body posts persisted, tr = before ++ [⟨.finish c s fields, r⟩] ∧
      (∀ sr ∈ finishes before, sr.1 = "completed") ∧ raised before = raised body ++ raised posts ∧
      Returns (executeBody m issue c').run body (.error exc) ∧
      Returns (persistCarried c' exc).run posts (.ok persisted) ∧
      fields = errorFields (errorType exc persisted) := by
  obtain ⟨c', drawn, body, exc, outcomes, posts, tail, rfl, -, hbody, hposts, hend⟩ :=
    execute_raises h hclaim
  generalize carriedOutcome exc (eventAnswers posts) = persisted at hposts hend
  have hcompleted : ∀ moves, finishes moves = [] → ∀ sr ∈ finishes (claimSteps rt c' drawn ++
      body ++ ⟨.joinHeartbeat c', outcomes⟩ :: (posts ++ moves)), sr.1 = "completed" := by
    intro moves hmoves sr hsr
    rw [finishes_append, finishes_append, finishes_claimSteps, List.nil_append] at hsr
    rcases List.mem_append.1 hsr with hsr | hsr
    · exact body_finishes (executeBody_returns hbody) sr hsr
    · change sr ∈ finishes (posts ++ moves) at hsr
      have hclean := (persistCarried_only c' exc).mem hposts
      rw [finishes_append, finishes_cleanup hclean, hmoves] at hsr
      cases hsr
  have hfin := mem_finishes.2 ⟨c, fields, hev⟩
  have hshape : tail = [⟨.moveStatus issue.identifier "Blocked", .error e⟩] ∨ ∃ r', tail =
      failMoves m issue.identifier exc persisted ++ [⟨.finish c' (failStatus exc persisted)
        (errorFields (errorType exc persisted)), r'⟩] := by
    cases hend with
    | moveRaised => exact Or.inl rfl
    | finishRaised => exact Or.inr ⟨_, rfl⟩
    | finished => exact Or.inr ⟨_, rfl⟩
  rcases hshape with rfl | ⟨r', rfl⟩
  · exact absurd (hcompleted _ rfl _ hfin) hs
  have hmoves : finishes (failMoves m issue.identifier exc persisted) = [] := finishes_movedTo _ _ _
  have hsplit : claimSteps rt c' drawn ++ body ++ ⟨.joinHeartbeat c', outcomes⟩ :: (posts ++
      (failMoves m issue.identifier exc persisted ++ [⟨.finish c' (failStatus exc persisted)
        (errorFields (errorType exc persisted)), r'⟩])) =
      (claimSteps rt c' drawn ++ body ++ ⟨.joinHeartbeat c', outcomes⟩ :: (posts ++
        failMoves m issue.identifier exc persisted)) ++ [⟨.finish c' (failStatus exc persisted)
          (errorFields (errorType exc persisted)), r'⟩] := by simp
  rw [hsplit] at hev ⊢
  rcases List.mem_append.1 hev with hev | hev
  · exact absurd (hcompleted _ hmoves _ (mem_finishes.2 ⟨c, fields, hev⟩)) hs
  cases List.mem_singleton.1 hev
  refine ⟨_, _, exc, body, posts, persisted, rfl, hcompleted _ hmoves, ?_, hbody, hposts, rfl⟩
  rw [raised_append, raised_append]
  show raised body ++ raised (posts ++ _) = _
  rw [raised_append, raised_of_good (answers_failMoves _ _ _ _), List.append_nil]

/-- **The name of a finish that does not complete** passes a check that the runtime's own names
pass exactly when what the other calls raised says so. -/
theorem recordedName_iff {rt : AgentRuntime} {m : Bool} {issue : Issue} {tr : List CallEvent}
    {q : Prog Call Call.Resp (Except Exc ExecutionContext)}
    (hreach : Reach (rt.execute m issue).run tr q) {c : ExecutionContext} {s name : String}
    {r : Except Exc Unit} (hev : (⟨.finish c s (errorFields name), r⟩ : CallEvent) ∈ tr)
    (hs : s ≠ "completed") {P : String → Prop} (hown : ∀ name ∈ ownNames, P name) :
    P name ↔ NamePasses P (raised (otherCalls s tr)) := by
  obtain ⟨later, o, hreturns⟩ := hreach.extend
  have hmem := List.mem_append_left later hev
  obtain ⟨hclaim, e, rfl⟩ := raises_of_finish hreturns hmem hs
  obtain ⟨before, c', exc, body, posts, persisted, htr, hbefore, hraised, hbody, hposts, hname⟩ :=
    execute_last_finish hreturns hclaim hmem hs
  -- The finish is the last call, so the execution has made all its calls.
  obtain rfl : later = [] := by
    rcases List.eq_nil_or_concat later with hnil | ⟨calls, last, rfl⟩
    · exact hnil
    · rw [List.concat_eq_append, ← List.append_assoc] at htr
      obtain ⟨rfl, -⟩ := List.append_inj' htr rfl
      exact absurd (hbefore _ (mem_finishes.2 ⟨c, _, List.mem_append_left calls hev⟩)) hs
  rw [List.append_nil] at htr
  subst htr
  obtain rfl := errorFields_inj hname
  have hothers : otherCalls s (before ++ [⟨.finish c s (errorFields (errorType exc persisted)),
      r⟩]) = before := by
    have hself : otherCalls s before = before := by
      refine List.filter_eq_self.2 fun ev hev' => decide_eq_true fun heq => ?_
      obtain ⟨sr, hsr, rfl⟩ := Option.map_eq_some_iff.1 heq
      exact hs (hbefore sr (List.mem_filterMap.2 ⟨ev, hev', hsr⟩))
    have hlast : otherCalls s [⟨.finish c s (errorFields (errorType exc persisted)), r⟩] = [] :=
      List.filter_eq_nil_iff.2 (List.forall_mem_singleton.2 (by simp [finishOf]))
    rw [otherCalls, List.filter_append]
    exact (congrArg₂ (· ++ ·) hself hlast).trans (List.append_nil _)
  rw [hothers, hraised]
  exact namePasses_iff hown (executeBody_surfaces m issue c' _ _ hbody) hposts

end HermesRuntime
