import HermesRuntime.ExecutionProof
import HermesRuntime.KanbanProof
import HermesRuntime.Lib.Firsts

/-!
# The events an execution persists

`_persist_events` validates every event, keeps the first of each key and posts what is left. For
the events of the Kanban adapter the key is the kind, the task, its status and its outcome.

* `normalizeEvents_ok_iff`, `normalizeEvents_taskEvents` — which events are kept.
* `stored_of_dispatch` — what an execution has stored once its dispatch was answered.
* `execute_of_dispatch` — the steps of an execution that passes the gates.
-/

namespace HermesRuntime

open Effects Prog Proc Lists KanbanDispatcherAdapter

/-! ## Lists of events -/

/-- Events are persisted when every one is accepted and has a key. -/
theorem normalizeEvents_ok_iff {seen : List EventKey} {events : List (String × RawPayload)} :
    (∃ normalized, normalizeEvents seen events = .ok normalized) ↔
      ∀ event ∈ events, ∃ payload key, validateEventPayload event.1 event.2 = .ok payload ∧
        eventKey event.1 payload = .ok key := by
  induction events generalizing seen with
  | nil => exact iff_of_true ⟨[], rfl⟩ (by simp)
  | cons event events ih =>
      obtain ⟨kind, payload⟩ := event
      rw [List.forall_mem_cons]
      constructor
      · rintro ⟨normalized, h⟩
        obtain ⟨value, hval, h₁⟩ := bind_eq_ok.1 h
        obtain ⟨key, hkey, h₂⟩ := bind_eq_ok.1 h₁
        refine ⟨⟨value, key, hval, hkey⟩, ?_⟩
        split at h₂
        · exact ih.1 ⟨_, h₂⟩
        · obtain ⟨rest, hrest, -⟩ := bind_eq_ok.1 h₂
          exact ih.1 ⟨rest, hrest⟩
      · intro ⟨⟨value, key, hval, hkey⟩, hrest⟩
        by_cases hseen : key ∈ seen
        · obtain ⟨rest, hn⟩ := (@ih seen).2 hrest
          refine ⟨rest, bind_eq_ok.2 ⟨value, hval, bind_eq_ok.2 ⟨key, hkey, ?_⟩⟩⟩
          rw [if_pos hseen]
          exact hn
        · obtain ⟨rest, hn⟩ := (@ih (key :: seen)).2 hrest
          refine ⟨(kind, value) :: rest,
            bind_eq_ok.2 ⟨value, hval, bind_eq_ok.2 ⟨key, hkey, ?_⟩⟩⟩
          rw [if_neg hseen]
          exact bind_eq_ok.2 ⟨rest, hn, rfl⟩

/-- The events kept are the first of each key. -/
theorem normalizeEvents_eq_firsts {α : Type} {raw : α → String × RawPayload}
    {payload : α → Mapping PyVal} {key : α → EventKey} {events : List α}
    (hval : ∀ e ∈ events, validateEventPayload (raw e).1 (raw e).2 = .ok (payload e))
    (hkey : ∀ e ∈ events, eventKey (raw e).1 (payload e) = .ok (key e)) (seen : List EventKey) :
    normalizeEvents seen (events.map raw) =
      .ok ((firsts key seen events).map fun e => ((raw e).1, payload e)) := by
  induction events generalizing seen with
  | nil => rfl
  | cons e events ih =>
      rw [List.forall_mem_cons] at hval hkey
      have hrest := ih hval.2 hkey.2
      have hstep : normalizeEvents seen ((e :: events).map raw) =
          if key e ∈ seen then normalizeEvents seen (events.map raw)
          else (normalizeEvents (key e :: seen) (events.map raw)).map
            fun rest => ((raw e).1, payload e) :: rest := by
        rw [List.map_cons, ← Prod.mk.eta (p := raw e), normalizeEvents, hval.1]
        show (do let k ← eventKey (raw e).1 (payload e); _) = _
        rw [hkey.1]
        show (if key e ∈ seen then _ else _) = _
        split
        · rfl
        · cases normalizeEvents (key e :: seen) (events.map raw) <;> rfl
      rw [hstep]
      by_cases hin : key e ∈ seen
      · rw [if_pos hin, firsts_cons_of_mem hin]
        exact hrest seen
      · rw [if_neg hin, firsts_cons_of_not_mem hin, hrest]
        rfl

/-! ## The events of the adapter -/

theorem get_of_mem {payload : Mapping PyVal} {key : String} {value : PyVal}
    (h : (⟨key, value⟩ : Sigma fun _ : String => PyVal) ∈ payload.entries) :
    payload.get key = value := by
  rw [Mapping.get, Option.mem_def.1 (AList.mem_lookup_iff.2 h), Option.getD_some]

theorem get_of_not_mem {payload : Mapping PyVal} {key : String} (h : key ∉ payload.keys) :
    payload.get key = .none := by
  rw [Mapping.get, AList.lookup_eq_none.2 h, Option.getD_none]

/-- The extra fields of an event: an outcome or fields of a result, as strings. -/
def PlainExtra (extra : Mapping PyVal) : Prop :=
  ∀ e ∈ extra.entries, e.1 ∈ "kanban_outcome" :: allowedResultFields ∧ ∃ x, e.2 = .str x

theorem plainExtra_empty : PlainExtra ∅ := fun _ he => absurd he List.not_mem_nil

/-- An event of the adapter, by what it is made of. -/
structure TaskEvent where
  kind : String
  snapshot : KanbanTaskSnapshot
  extra : Mapping PyVal
  plain : PlainExtra extra

namespace TaskEvent

/-- An event without extra fields. -/
def plainly (kind : String) (snapshot : KanbanTaskSnapshot) : TaskEvent :=
  ⟨kind, snapshot, ∅, plainExtra_empty⟩

variable (c : ExecutionContext) (e : TaskEvent)

/-- The event as the adapter hands it over. -/
def raw : String × RawPayload := kanbanEvent e.kind c e.snapshot e.extra

/-- Its payload. -/
def payload : Mapping PyVal := eventPayload c e.snapshot e.extra

/-- A string, or nothing, as a key. -/
def textKey : PyVal → PyKey
  | .str s => .str s
  | _ => .none

/-- What `_event_key` makes of it. -/
def key : EventKey :=
  .task e.kind (textKey ((e.payload c).get "kanban_task_id")) (textKey ((e.payload c).get "status"))
    (textKey ((e.payload c).get "kanban_outcome"))

variable {c e}

/-- Every value of the payload is a string. -/
theorem value_payload {entry : Sigma fun _ : String => PyVal}
    (h : entry ∈ (e.payload c).entries) : ∃ x, entry.2 = .str x := by
  unfold payload eventPayload at h
  rcases Mapping.mem_update.1 h with h | ⟨h, -⟩
  · rw [entries_withoutNone, List.mem_filter] at h
    exact (e.plain _ h.1).2
  rcases mem_setText h with ⟨x, -, rfl⟩ | h
  · exact ⟨x, rfl⟩
  rcases mem_setText h with ⟨x, -, rfl⟩ | h
  · exact ⟨x, rfl⟩
  simp only [List.mem_cons, List.not_mem_nil, or_false] at h
  rcases h with rfl | rfl | rfl | rfl | rfl <;> exact ⟨_, rfl⟩

/-- So nothing is left out of it. -/
theorem withoutNone_payload : withoutNone (e.payload c) = e.payload c := by
  apply AList.ext
  rw [entries_withoutNone, List.filter_eq_self]
  intro entry hentry
  obtain ⟨x, hx⟩ := value_payload hentry
  rw [hx]
  rfl

theorem hashKey_get (name : String) :
    ((e.payload c).get name).hashKey = .ok (textKey ((e.payload c).get name)) := by
  unfold Mapping.get
  cases hlook : (e.payload c).lookup name with
  | none => rfl
  | some value =>
      obtain ⟨x, hx⟩ := value_payload (AList.mem_lookup_iff.1 (Option.mem_def.2 hlook))
      obtain rfl : value = .str x := hx
      rfl

theorem get_taskId : (e.payload c).get "kanban_task_id" = .str e.snapshot.taskId := by
  refine get_of_mem (taskId_mem_eventPayload fun hkey => ?_)
  obtain ⟨entry, hentry, heq⟩ := Mapping.mem_keys.1 hkey
  have hname := (e.plain entry hentry).1
  rw [heq] at hname
  exact absurd hname (by decide)

theorem eventKey_payload : eventKey e.kind (e.payload c) = .ok (e.key c) := by
  have htask : (e.payload c).get "kanban_task_id" ≠ .none := by
    rw [get_taskId]
    exact nofun
  unfold eventKey
  rw [if_pos htask, hashKey_get, hashKey_get, hashKey_get]
  rfl

/-- An accepted event comes back as it is. -/
theorem validate_raw (h : ValidEvent (e.raw c)) :
    validateEventPayload (e.raw c).1 (e.raw c).2 = .ok (e.payload c) := by
  unfold ValidEvent at h
  cases hval : validateEventPayload (e.raw c).1 (e.raw c).2 with
  | error exc =>
      rw [hval] at h
      cases h
  | ok normalized =>
      obtain ⟨_, _, -, -, -, -, -, rfl⟩ := validateEventPayload_eq_ok_iff.1 hval
      rw [← withoutNone_payload]
      rfl

end TaskEvent

/-- **Which events of the adapter are kept**: of the accepted ones the first of each key. -/
theorem normalizeEvents_taskEvents {c : ExecutionContext} {events : List TaskEvent}
    (h : ∀ e ∈ events, ValidEvent (e.raw c)) (seen : List EventKey) :
    normalizeEvents seen (events.map (·.raw c)) =
      .ok ((firsts (·.key c) seen events).map fun e => (e.kind, e.payload c)) :=
  normalizeEvents_eq_firsts (fun e he => TaskEvent.validate_raw (h e he))
    (fun _ _ => TaskEvent.eventKey_payload) seen

/-- Events of the adapter are persisted when they are accepted. -/
theorem taskEvents_normalize_iff {c : ExecutionContext} {events : List TaskEvent} :
    (∃ normalized, normalizeEvents [] (events.map (·.raw c)) = .ok normalized) ↔
      ∀ e ∈ events, ValidEvent (e.raw c) := by
  constructor
  · intro hex e he
    obtain ⟨payload, key, hval, -⟩ := normalizeEvents_ok_iff.1 hex _ (List.mem_map_of_mem he)
    rw [ValidEvent, hval]
    rfl
  · intro h
    exact ⟨_, normalizeEvents_taskEvents h []⟩

/-! ## What an execution stores -/

/-- The event a `store.event` call that went through has stored. -/
def storedOf : CallEvent → Option (String × Mapping PyVal)
  | ⟨.event _ kind payload, .ok ()⟩ => some (kind, payload)
  | _ => none

/-- The events a trace has stored. -/
def storedEvents (tr : List CallEvent) : List (String × Mapping PyVal) := tr.filterMap storedOf

/-- Every `store.event` call of the trace goes through. -/
def EventsSucceed (tr : List CallEvent) : Prop :=
  ∀ c kind payload r, (⟨.event c kind payload, r⟩ : CallEvent) ∈ tr → r = .ok ()

/-- Only the dispatcher raises errors that carry events. -/
def CarriesNothing : CallEvent → Prop
  | ⟨.moveStatus _ _, .error e⟩ | ⟨.finish _ _ _, .error e⟩ => e.event = none
  | _ => True

@[simp] theorem storedEvents_append (tr tr' : List CallEvent) :
    storedEvents (tr ++ tr') = storedEvents tr ++ storedEvents tr' := List.filterMap_append

@[simp] theorem storedEvents_nil : storedEvents [] = [] := rfl

@[simp] theorem storedEvents_event (c : ExecutionContext) (kind : String) (payload : Mapping PyVal)
    (tr : List CallEvent) :
    storedEvents (⟨.event c kind payload, .ok ()⟩ :: tr) = (kind, payload) :: storedEvents tr := rfl

theorem storedEvents_eq_nil {tr : List CallEvent} (h : ∀ ev ∈ tr, storedOf ev = none) :
    storedEvents tr = [] := List.filterMap_eq_nil_iff.2 h

@[simp] theorem storedEvents_movedTo (m : Bool) (i s : String) :
    storedEvents (movedTo m i s) = [] := by
  cases m <;> rfl

theorem EventsSucceed.left {tr tr' : List CallEvent} (h : EventsSucceed (tr ++ tr')) :
    EventsSucceed tr := fun c kind payload r hev =>
  h c kind payload r (List.mem_append_left _ hev)

theorem EventsSucceed.right {tr tr' : List CallEvent} (h : EventsSucceed (tr ++ tr')) :
    EventsSucceed tr' := fun c kind payload r hev =>
  h c kind payload r (List.mem_append_right _ hev)

theorem postEvents_stored {c : ExecutionContext} {events : List (String × Mapping PyVal)}
    {tr : List CallEvent} {o : Except Exc Unit} (h : Returns (postEvents c events).run tr o)
    (hok : EventsSucceed tr) : storedEvents tr = events ∧ o = .ok () := by
  induction events generalizing tr with
  | nil =>
      obtain ⟨rfl, rfl⟩ := returns_pure.1 h
      exact ⟨rfl, rfl⟩
  | cons e events ih =>
      rcases returns_run_bind.1 h with ⟨_, tr₁, u, rfl, hev, h₁⟩ | ⟨e', hev, rfl⟩
      · obtain rfl := returns_event.1 hev
        obtain ⟨hstored, ho⟩ := ih h₁ hok.right
        refine ⟨?_, ho⟩
        show (e.1, e.2) :: storedEvents tr₁ = _
        rw [hstored]
      · obtain rfl := returns_event.1 hev
        cases hok _ _ _ _ (List.mem_singleton_self _)

theorem persistEvents_stored {c : ExecutionContext} {events : List (String × RawPayload)}
    {normalized : List (String × Mapping PyVal)} {tr : List CallEvent} {o : Except Exc Unit}
    (h : Returns (persistEvents c events).run tr o) (hok : EventsSucceed tr)
    (hnorm : normalizeEvents [] events = .ok normalized) :
    storedEvents tr = normalized ∧ o = .ok () := by
  unfold persistEvents at h
  rcases returns_run_bind.1 h with ⟨_, tr₁, kept, rfl, hkept, h₁⟩ | ⟨e, hkept, rfl⟩
  · obtain ⟨rfl, heq⟩ := returns_settle.1 hkept
    rw [hnorm] at heq
    cases heq
    exact postEvents_stored h₁ hok.right
  · obtain ⟨-, heq⟩ := returns_settle.1 hkept
    rw [hnorm] at heq
    cases heq

/-- After the dispatch the events of its result are stored, and an error carries none. -/
theorem afterDispatch_stored {c : ExecutionContext} {result : ExecutionResult}
    {normalized : List (String × Mapping PyVal)} {tr : List CallEvent}
    {o : Except Exc ExecutionResult} (h : Returns (afterDispatch c result).run tr o)
    (hok : EventsSucceed tr) (hnorm : normalizeEvents [] result.events = .ok normalized) :
    storedEvents tr = normalized ∧ ∀ e, o = .error e → e.event = none := by
  unfold afterDispatch at h
  rcases returns_run_bind.1 h with ⟨_, tr₁, outcomes, rfl, hjoin, h₁⟩ | ⟨e, hjoin, -⟩
  swap
  · obtain ⟨_, -, ho⟩ := returns_perform.1 hjoin
    cases ho
  obtain ⟨_, rfl, ho⟩ := returns_perform.1 hjoin
  cases ho
  have hraise : ∀ {check : Bool} {exc e : Exc} {tr' : List CallEvent},
      Returns (raiseUnless check exc).run tr' (.error e) → tr' = [] ∧ e = exc := by
    intro check exc e tr' hr
    cases check
    · obtain ⟨rfl, heq⟩ := returns_throw.1 hr
      cases heq
      exact ⟨rfl, rfl⟩
    · cases (returns_pure.1 hr).2
  rcases returns_run_bind.1 h₁ with ⟨posts, tr₂, _, rfl, hposts, h₂⟩ | ⟨e, hposts, -⟩
  swap
  · cases (persistEvents_stored hposts hok.right hnorm).2
  obtain ⟨hstored, -⟩ := persistEvents_stored hposts hok.right.left hnorm
  have hsplit : storedEvents (⟨.joinHeartbeat c, outcomes⟩ :: (posts ++ tr₂)) =
      normalized ++ storedEvents tr₂ := by
    show storedEvents (posts ++ tr₂) = _
    rw [storedEvents_append, hstored]
  rw [List.singleton_append, hsplit]
  rcases returns_run_bind.1 h₂ with ⟨_, tr₃, _, rfl, hhb, h₃⟩ | ⟨e, hhb, rfl⟩
  swap
  · obtain ⟨rfl, rfl⟩ := hraise hhb
    exact ⟨by simp, fun e he => by cases he; rfl⟩
  obtain ⟨rfl, -⟩ := returns_raiseUnless_ok.1 hhb
  rcases returns_run_bind.1 h₃ with ⟨_, tr₄, _, rfl, hgate, h₄⟩ | ⟨e, hgate, rfl⟩
  swap
  · obtain ⟨rfl, rfl⟩ := hraise hgate
    exact ⟨by simp, fun e he => by cases he; rfl⟩
  obtain ⟨rfl, -⟩ := returns_raiseUnless_ok.1 hgate
  obtain ⟨rfl, rfl⟩ := returns_pure.1 h₄
  exact ⟨by simp, nofun⟩

/-- The steps up to the gates, once the dispatch was answered with `r`, store `agent.dispatched`
and the events of a result. -/
theorem dispatchIssue_stored {m : Bool} {issue : Issue} {c : ExecutionContext}
    {r : Except Exc ExecutionResult} {normalized : List (String × Mapping PyVal)}
    {tr : List CallEvent} {o : Except Exc ExecutionResult}
    (h : Returns (dispatchIssue m issue c).run tr o)
    (hdisp : (⟨.dispatch c, r⟩ : CallEvent) ∈ tr) (hok : EventsSucceed tr)
    (hnorm : ∀ result, r = .ok result → normalizeEvents [] result.events = .ok normalized) :
    (∃ e, r = .error e ∧ o = .error e ∧ storedEvents tr = [("agent.dispatched", ∅)]) ∨
      (∃ result, r = .ok result) ∧ (∀ e, o = .error e → e.event = none) ∧
        storedEvents tr = ("agent.dispatched", ∅) :: normalized := by
  rcases dispatchIssue_dispatch h with hnone | ⟨r', tail, rfl, hafter⟩
  · exact absurd trivial (hnone _ hdisp)
  have hstored : storedEvents (movedTo m issue.identifier "In Progress" ++
      ⟨.event c "agent.dispatched" ∅, .ok ()⟩ :: ⟨.dispatch c, r'⟩ :: tail) =
        ("agent.dispatched", ∅) :: storedEvents tail := by
    rw [storedEvents_append, storedEvents_movedTo, List.nil_append, storedEvents_event]
    rfl
  have hsame : (∀ ev ∈ tail, ¬ IsDispatch ev) → r = r' := by
    intro htail
    rcases List.mem_append.1 hdisp with hmem | hmem
    · exact absurd trivial (not_dispatch_movedTo _ hmem)
    rcases List.mem_cons.1 hmem with heq | hmem
    · cases heq
    rcases List.mem_cons.1 hmem with heq | hmem
    · cases heq
      rfl
    · exact absurd trivial (htail _ hmem)
  rw [hstored]
  rcases hafter with ⟨e, rfl, rfl, rfl⟩ | ⟨result, rfl, hafter⟩
  · exact Or.inl ⟨e, hsame (List.forall_mem_nil _), rfl, rfl⟩
  · have hr := hsame ((afterDispatch_only c result).mem hafter)
    have htail : EventsSucceed tail := fun c' kind payload r'' hmem =>
      hok c' kind payload r'' (by simp [hmem])
    obtain ⟨hposted, herror⟩ := afterDispatch_stored hafter htail (hnorm result hr)
    exact Or.inr ⟨⟨result, hr⟩, herror, by rw [hposted]⟩

/-- So does the whole `try` block; an error it leaves to the `except` block carries events only
if the dispatcher raised it. -/
theorem bodyTrace_stored {m : Bool} {issue : Issue} {c : ExecutionContext}
    {r : Except Exc ExecutionResult} {normalized : List (String × Mapping PyVal)}
    {tr : List CallEvent} {o : Except Exc ExecutionContext} (h : BodyTrace m issue c tr o)
    (hdisp : (⟨.dispatch c, r⟩ : CallEvent) ∈ tr) (hok : EventsSucceed tr)
    (hcarry : ∀ ev ∈ tr, CarriesNothing ev)
    (hnorm : ∀ result, r = .ok result → normalizeEvents [] result.events = .ok normalized) :
    (∃ e, r = .error e ∧ o = .error e ∧ storedEvents tr = [("agent.dispatched", ∅)]) ∨
      (∃ result, r = .ok result) ∧ (∀ e, o = .error e → e.event = none) ∧
        storedEvents tr = ("agent.dispatched", ∅) :: normalized := by
  -- Past the gates nothing is stored and nothing dispatched.
  have hpast : ∀ {work tail : List CallEvent} {result : ExecutionResult}
      {o' : Except Exc ExecutionContext}, tr = work ++ tail →
      Returns (dispatchIssue m issue c).run work (.ok result) →
      (∀ ev ∈ tail, storedOf ev = none ∧ ¬ IsDispatch ev) → (∀ e, o' = .error e → e.event = none) →
      (∃ result, r = .ok result) ∧ (∀ e, o' = .error e → e.event = none) ∧
        storedEvents tr = ("agent.dispatched", ∅) :: normalized := by
    intro work tail result o' htr hwork htail herror
    rw [htr] at hdisp hok ⊢
    have hmem := (List.mem_append.1 hdisp).resolve_right fun hmem => (htail _ hmem).2 trivial
    rw [storedEvents_append, storedEvents_eq_nil fun ev hev => (htail ev hev).1, List.append_nil]
    rcases dispatchIssue_stored hwork hmem hok.left hnorm with ⟨e, -, ho, -⟩ | ⟨hr, -, hstored⟩
    · cases ho
    · exact ⟨hr, herror, hstored⟩
  cases h with
  | stopped e hwork =>
      refine (dispatchIssue_stored hwork hdisp hok hnorm).imp ?_ ?_
      · intro ⟨e', hr, ho, hstored⟩
        cases ho
        exact ⟨e, hr, rfl, hstored⟩
      · intro ⟨hr, herror, hstored⟩
        exact ⟨hr, fun e' he => herror e' (by cases he; rfl), hstored⟩
  | reviewFailed result e hm hwork =>
      refine Or.inr (hpast rfl hwork (fun ev hev => ?_) fun e' he => ?_)
      · rw [List.mem_singleton.1 hev]
        exact ⟨rfl, id⟩
      · cases he
        exact hcarry ⟨.moveStatus issue.identifier "In Review", .error e⟩ (by simp)
  | finished result r' hwork =>
      refine Or.inr (hpast (List.append_assoc _ _ _) hwork (fun ev hev => ?_) fun e he => ?_)
      · rcases List.mem_append.1 hev with hev | hev
        · cases m
          · cases hev
          · rw [List.mem_singleton.1 hev]
            exact ⟨rfl, id⟩
        · rw [List.mem_singleton.1 hev]
          exact ⟨rfl, id⟩
      · cases r' with
        | ok u => cases he
        | error e' =>
            cases he
            exact hcarry ⟨.finish c "completed" result.fields, .error e⟩ (by simp)

/-- The `except` block stores the events its exception carries. -/
theorem executeFailed_stored {m : Bool} {issue : Issue} {c : ExecutionContext} {exc : Exc}
    {normalized : List (String × Mapping PyVal)} {tr : List CallEvent}
    {o : Except Exc ExecutionContext} (h : Returns (executeFailed m issue c exc).run tr o)
    (hok : EventsSucceed tr) (hnone : exc.event = none → normalized = [])
    (hnorm : ∀ ev, exc.event = some ev → normalizeEvents [] ev.events = .ok normalized) :
    storedEvents tr = normalized := by
  unfold executeFailed at h
  rcases returns_run_bind.1 h with ⟨_, tr₁, outcomes, rfl, hjoin, h₁⟩ | ⟨e, hjoin, -⟩
  swap
  · obtain ⟨_, -, ho⟩ := returns_perform.1 hjoin
    cases ho
  obtain ⟨_, rfl, -⟩ := returns_perform.1 hjoin
  rcases returns_run_bind.1 h₁ with ⟨posts, tr₂, persisted, rfl, hpers, h₂⟩ | ⟨e, hpers, -⟩
  swap
  · cases persistCarried_returns hpers
  have hposts : storedEvents posts = normalized := by
    unfold persistCarried at hpers
    cases hev : exc.event with
    | none =>
        rw [hev] at hpers
        rw [(returns_pure.1 hpers).1, hnone hev]
        rfl
    | some ev =>
        rw [hev] at hpers
        obtain ⟨tr₃, tr₄, answer, rfl, hper, h₃⟩ := returns_bind.1 hpers
        obtain ⟨rfl, -⟩ := returns_ret.1 h₃
        rw [List.append_nil] at hok ⊢
        exact (persistEvents_stored hper hok.right.left (hnorm ev hev)).1
  have hrest : Only (fun ev => storedOf ev = none) (failIssue m issue c exc persisted).run := by
    unfold failIssue
    refine only_run_bind (when_only fun r => ⟨rfl, trivial⟩) fun _ => ?_
    exact only_run_bind (fun r => ⟨rfl, trivial⟩) fun _ => trivial
  show storedEvents (posts ++ tr₂) = normalized
  rw [storedEvents_append, hposts, storedEvents_eq_nil (hrest.mem h₂), List.append_nil]

/-- **What an execution stores once its dispatch was answered**: `agent.dispatched`, and the
events of the result or of the error. -/
theorem stored_of_dispatch {rt : AgentRuntime} {m : Bool} {issue : Issue} {tr : List CallEvent}
    {o : Except Exc ExecutionContext} (h : Returns (rt.execute m issue).run tr o)
    {c : ExecutionContext} {r : Except Exc ExecutionResult}
    {normalized : List (String × Mapping PyVal)} (hdisp : (⟨.dispatch c, r⟩ : CallEvent) ∈ tr)
    (hok : EventsSucceed tr) (hcarry : ∀ ev ∈ tr, CarriesNothing ev)
    (hnorm : normalizeEvents [] (emitted r) = .ok normalized) :
    storedEvents tr = ("agent.dispatched", ∅) :: normalized := by
  rcases execute_claims h with ⟨hrefused, -⟩ | ⟨c', drawn, own, rfl, -, hown⟩
  · exact (hrefused _ hdisp).elim
  have hmem := (List.mem_append.1 hdisp).resolve_left fun hmem =>
    not_dispatch_claimSteps _ hmem trivial
  show storedEvents own = _
  have hcarry' : ∀ ev ∈ own, CarriesNothing ev := fun ev hev =>
    hcarry ev (List.mem_append_right _ hev)
  have hresult : ∀ result, r = .ok result → normalizeEvents [] result.events = .ok normalized := by
    intro result hr
    rw [hr] at hnorm
    exact hnorm
  rcases returns_run_tryCatch.1 hown with ⟨c₁, hbody, rfl⟩ | ⟨body, rest, e, rfl, hbody, hfail⟩
  · have hb := executeBody_returns hbody
    have hc : c' = c := (bodyTrace_own hb _ hmem).symm
    subst hc
    rcases bodyTrace_stored hb hmem hok.right hcarry' hresult with ⟨e, -, ho, -⟩ | ⟨-, -, hstored⟩
    · cases ho
    · exact hstored
  · have hb := executeBody_returns hbody
    have hf := executeFailed_returns hfail
    have hbodymem := (List.mem_append.1 hmem).resolve_right fun hmem =>
      failTrace_forall (P := fun ev => ¬ IsDispatch ev) hf (fun _ => not_dispatch_of_cleanup)
        (fun _ => id) (fun _ _ _ _ => id) _ hmem trivial
    have hc : c' = c := (bodyTrace_own hb _ hbodymem).symm
    subst hc
    rw [storedEvents_append]
    rcases bodyTrace_stored hb hbodymem hok.right.left
        (fun ev hev => hcarry' ev (List.mem_append_left _ hev)) hresult with
      ⟨e', rfl, ho, hstored⟩ | ⟨⟨result, rfl⟩, herror, hstored⟩
    · cases ho
      have hcarried : storedEvents rest = normalized := by
        refine executeFailed_stored hfail hok.right.right (fun hnone => ?_) fun ev hev => ?_
        · rw [emitted, hnone] at hnorm
          cases hnorm
          rfl
        · rw [emitted, hev] at hnorm
          exact hnorm
      rw [hstored, hcarried]
      rfl
    · have hnone := herror e rfl
      have hcarried : storedEvents rest = [] :=
        executeFailed_stored hfail hok.right.right (fun _ => rfl) fun ev hev => by
          rw [hnone] at hev
          cases hev
      rw [hstored, hcarried, List.append_nil]

/-! ## Executions that pass the gates -/

/-- `store.event` goes through for every event. -/
theorem postEvents_ok (c : ExecutionContext) (events : List (String × Mapping PyVal)) :
    Returns (postEvents c events).run
      (events.map fun event => ⟨.event c event.1 event.2, .ok ()⟩) (.ok ()) := by
  induction events with
  | nil => exact returns_pure.2 ⟨rfl, rfl⟩
  | cons event events ih =>
      exact returns_run_bind.2 (Or.inl
        ⟨[⟨.event c event.1 event.2, .ok ()⟩], _, (), rfl, returns_event.2 rfl, ih⟩)

theorem returns_movedTo (m : Bool) (i s : String) :
    Returns (when m (moveStatus i s)).run (movedTo m i s) (.ok ()) := by
  cases m
  · exact returns_pure.2 ⟨rfl, rfl⟩
  · exact returns_moveStatus.2 rfl

/-- The steps up to the gates where everything succeeds. -/
theorem returns_dispatchIssue (m : Bool) (issue : Issue) {c : ExecutionContext}
    {result : ExecutionResult} {normalized : List (String × Mapping PyVal)}
    (hnorm : normalizeEvents [] result.events = .ok normalized)
    (hgate : gatesPassed c.agent result = true) :
    Returns (dispatchIssue m issue c).run
      (movedTo m issue.identifier "In Progress" ++ [⟨.event c "agent.dispatched" ∅, .ok ()⟩,
        ⟨.dispatch c, .ok result⟩, ⟨.joinHeartbeat c, []⟩] ++
        normalized.map fun event => ⟨.event c event.1 event.2, .ok ()⟩) (.ok result) := by
  unfold dispatchIssue
  rw [List.append_assoc]
  refine returns_run_bind_ok.2 ⟨_, _, (), rfl, returns_movedTo m _ _, ?_⟩
  refine returns_run_bind_ok.2 ⟨[], _, ∅, rfl, returns_settle.2 ⟨rfl, rfl⟩, ?_⟩
  refine returns_run_bind_ok.2 ⟨[_], _, (), rfl, returns_event.2 rfl, ?_⟩
  refine returns_run_bind_ok.2 ⟨[_], _, result, rfl, returns_dispatch.2 rfl, ?_⟩
  refine returns_run_bind_ok.2 ⟨[_], _, [], rfl, returns_perform.2 ⟨_, rfl, rfl⟩, ?_⟩
  have hposts : Returns (persistEvents c result.events).run
      (normalized.map fun event => ⟨.event c event.1 event.2, .ok ()⟩) (.ok ()) := by
    unfold persistEvents
    exact returns_run_bind_ok.2
      ⟨[], _, normalized, rfl, returns_settle.2 ⟨rfl, hnorm.symm⟩, postEvents_ok c normalized⟩
  refine returns_run_bind_ok.2 ⟨_, [], (), (List.append_nil _).symm, hposts, ?_⟩
  refine returns_run_bind_ok.2 ⟨[], [], (), rfl, returns_raiseUnless_ok.2 ⟨rfl, rfl⟩, ?_⟩
  exact returns_run_bind_ok.2
    ⟨[], [], (), rfl, returns_raiseUnless_ok.2 ⟨rfl, hgate⟩, returns_pure.2 ⟨rfl, rfl⟩⟩

/-- The steps of an execution that gets past the gates. -/
theorem execute_of_dispatch (rt : AgentRuntime) (m : Bool) {issue : Issue} {c : ExecutionContext}
    {result : ExecutionResult} {work : List CallEvent} (hc : IsContextOf issue c)
    (hdisp : Returns (dispatchIssue m issue c).run work (.ok result)) :
    ∃ drawn, Returns (rt.execute m issue).run
      (claimSteps rt c drawn ++ (work ++ (movedTo m issue.identifier "In Review" ++
        [⟨.finish c "completed" result.fields, .ok ()⟩]))) (.ok c) := by
  obtain ⟨runId, linearIssueId, agent, risk, mode, environment⟩ := c
  obtain ⟨hclass, rfl, millis, random, rfl⟩ := hc
  refine ⟨(millis, random), ?_⟩
  generalize hcontext : (⟨newRunId millis random, issue.identifier, agent, risk, mode,
    environment⟩ : ExecutionContext) = c at hdisp ⊢
  have hbody : Returns (executeBody m issue c).run
      (work ++ (movedTo m issue.identifier "In Review" ++
        [⟨.finish c "completed" result.fields, .ok ()⟩])) (.ok c) := by
    unfold executeBody completeIssue
    refine returns_run_bind_ok.2 ⟨work, _, result, rfl, hdisp, ?_⟩
    refine returns_run_bind_ok.2 ⟨_, _, (), rfl, returns_movedTo m _ _, ?_⟩
    exact returns_run_bind_ok.2 ⟨_, [], (), rfl, returns_finish.2 rfl, returns_pure.2 ⟨rfl, rfl⟩⟩
  have hclaim : Returns (claimIssue rt c).run [⟨.claim c rt.ttlSeconds, .ok ()⟩] (.ok ()) :=
    returns_run_tryCatch.2 (Or.inl ⟨(), returns_claim.2 rfl, rfl⟩)
  unfold AgentRuntime.execute
  refine returns_run_bind_ok.2 ⟨[], _, _, rfl, returns_settle.2 ⟨rfl, hclass.symm⟩, ?_⟩
  refine returns_run_bind_ok.2
    ⟨[_], _, (millis, random), rfl, returns_perform.2 ⟨_, rfl, rfl⟩, ?_⟩
  subst hcontext
  refine returns_run_bind_ok.2 ⟨[_], _, (), rfl, hclaim, ?_⟩
  refine returns_run_bind_ok.2 ⟨[_], _, (), rfl, returns_perform.2 ⟨_, rfl, rfl⟩, ?_⟩
  exact returns_run_tryCatch.2 (Or.inl ⟨_, hbody, rfl⟩)

/-- Where a result passes the gates, all calls can go through. -/
theorem exists_execute_of_gates (rt : AgentRuntime) (m : Bool) {issue : Issue}
    {c : ExecutionContext} {result : ExecutionResult}
    {normalized : List (String × Mapping PyVal)} (hc : IsContextOf issue c)
    (hnorm : normalizeEvents [] result.events = .ok normalized)
    (hgate : gatesPassed c.agent result = true) :
    ∃ tr, Returns (rt.execute m issue).run tr (.ok c) ∧
      (⟨.dispatch c, .ok result⟩ : CallEvent) ∈ tr ∧ EventsSucceed tr ∧
      ∀ ev ∈ tr, CarriesNothing ev := by
  obtain ⟨drawn, hrun⟩ :=
    execute_of_dispatch rt m hc (returns_dispatchIssue m issue hnorm hgate)
  have hmoved : ∀ s, ∀ ev ∈ movedTo m issue.identifier s, ev = ⟨.moveStatus issue.identifier s,
      .ok ()⟩ := by
    intro s ev hev
    cases m
    · cases hev
    · exact List.mem_singleton.1 hev
  have hsteps : ∀ ev ∈ claimSteps rt c drawn ++ (movedTo m issue.identifier "In Progress" ++
      [⟨.event c "agent.dispatched" ∅, .ok ()⟩, ⟨.dispatch c, .ok result⟩,
        ⟨.joinHeartbeat c, []⟩] ++
        (normalized.map fun event => ⟨.event c event.1 event.2, .ok ()⟩) ++
      (movedTo m issue.identifier "In Review" ++ [⟨.finish c "completed" result.fields, .ok ()⟩])),
      (∀ c' kind payload r, ev = ⟨.event c' kind payload, r⟩ → r = .ok ()) ∧
        CarriesNothing ev := by
    intro ev hev
    simp only [claimSteps, List.mem_append, List.mem_cons, List.not_mem_nil, or_false,
      List.mem_map] at hev
    rcases hev with (rfl | rfl | rfl) | ((hev | rfl | rfl | rfl) | ⟨event, -, rfl⟩) | hev | rfl
    case inr.inl.inl.inl | inr.inr.inl =>
      obtain rfl := hmoved _ ev hev
      refine ⟨fun c' kind payload r heq => ?_, trivial⟩
      cases heq
    case inr.inl.inl.inr.inl | inr.inl.inr =>
      refine ⟨fun c' kind payload r heq => ?_, trivial⟩
      cases heq
      rfl
    all_goals
      refine ⟨fun c' kind payload r heq => ?_, trivial⟩
      cases heq
  refine ⟨_, hrun, by simp, fun c' kind payload r hev => ?_, fun ev hev => (hsteps ev hev).2⟩
  exact (hsteps _ hev).1 c' kind payload r rfl

end HermesRuntime
