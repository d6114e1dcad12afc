import HermesRuntime.JsonText
import HermesRuntime.PayloadContract
import HermesRuntime.PersistedEvents
import HermesRuntime.Supabase

/-!
# The events `_persist_events` stores

All events are validated before the first one is stored. Of those that are in one class the first
is stored, in the order they came in.

* `SameClass` — one class: with a task the kind, task, status and outcome, else kind and payload.
* `eventKey_eq_iff` — the keys tell exactly these classes apart.
* `Posts` — `store.event` called for one event after the other, up to the first call that raises.
* `events_persisted` — the calls, what the store makes of them, and storing the events again.
* `no_one_equality` — the two keys do not go by one notion of equality.
-/

namespace HermesRuntime

open Effects Prog Proc Lists KanbanDispatcherAdapter

/-! ## Classes -/

/-- `v == w`, as elements of a key. -/
def pyEq (v w : PyVal) : Prop := v.hashKey = w.hashKey

instance : DecidableRel pyEq := fun v w => inferInstanceAs (Decidable (v.hashKey = w.hashKey))

/-- The payload has a task id. -/
def HasTask (payload : Mapping PyVal) : Prop := payload.get "kanban_task_id" ≠ .none

instance (payload : Mapping PyVal) : Decidable (HasTask payload) :=
  inferInstanceAs (Decidable (_ ≠ _))

/-- Events of one class, by when payloads are `equal` and when fields `agree`. -/
def SameClass (equal agree : PyVal → PyVal → Prop) (e e' : String × Mapping PyVal) : Prop :=
  e.1 = e'.1 ∧
    ((¬ HasTask e.2 ∧ ¬ HasTask e'.2 ∧
        ∀ key ∈ e.2.keys ++ e'.2.keys, equal (e.2.get key) (e'.2.get key)) ∨
      (HasTask e.2 ∧ HasTask e'.2 ∧ ∀ key ∈ ["kanban_task_id", "status", "kanban_outcome"],
        agree (e.2.get key) (e'.2.get key)))

instance (equal agree : PyVal → PyVal → Prop) [DecidableRel equal] [DecidableRel agree] :
    DecidableRel (SameClass equal agree) := fun e e' => by
  unfold SameClass
  infer_instance

/-- A normalized payload of scalars: none of them is `None`. -/
def PlainValues (payload : Mapping PyVal) : Prop :=
  ∀ e ∈ payload.entries, e.2.IsScalar ∧ e.2 ≠ .none

section Keys

variable {kind kind' : String} {p q : Mapping PyVal}

theorem PlainValues.scalar (hp : PlainValues p) : ScalarValues p := fun e he => (hp e he).1

theorem PlainValues.get (hp : PlainValues p) (key : String) : (p.get key).IsScalar :=
  scalar_lookup hp.scalar key

theorem hashKey_ok {v : PyVal} (hv : v.IsScalar) : ∃ key, v.hashKey = .ok key := by
  cases v with
  | none | str s | bool b | int n => exact ⟨_, rfl⟩
  | float x => exact hv.elim
  | object cls text => exact hv.elim

/-- The key of an event with a task. -/
theorem eventKey_task (hp : PlainValues p) (htask : HasTask p) : ∃ task status outcome,
    (p.get "kanban_task_id").hashKey = .ok task ∧ (p.get "status").hashKey = .ok status ∧
      (p.get "kanban_outcome").hashKey = .ok outcome ∧
      ∀ kind, eventKey kind p = .ok (.task kind task status outcome) := by
  obtain ⟨task, ht⟩ := hashKey_ok (hp.get "kanban_task_id")
  obtain ⟨status, hs⟩ := hashKey_ok (hp.get "status")
  obtain ⟨outcome, ho⟩ := hashKey_ok (hp.get "kanban_outcome")
  refine ⟨task, status, outcome, ht, hs, ho, fun kind => ?_⟩
  have hget : p.get "kanban_task_id" ≠ .none := htask
  unfold eventKey
  rw [if_pos hget, ht, hs, ho]
  rfl

/-- The key of an event without one. -/
theorem eventKey_noTask (hp : PlainValues p) (htask : ¬ HasTask p) :
    ∃ text, jsonDumps p = .ok text ∧ ∀ kind, eventKey kind p = .ok (.payload kind text) := by
  refine ⟨_, jsonDumps_ok hp.scalar, fun kind => ?_⟩
  have hget : ¬ p.get "kanban_task_id" ≠ .none := htask
  unfold eventKey
  rw [if_neg hget, jsonDumps_ok hp.scalar]
  rfl

/-- Payloads without `None` that look the same to `get` have the same entries. -/
theorem entries_perm_iff_get (hp : PlainValues p) (hq : PlainValues q) :
    p.entries.Perm q.entries ↔ ∀ key ∈ p.keys ++ q.keys, p.get key = q.get key := by
  have hsome : ∀ {m : Mapping PyVal} {key : String} {v : PyVal}, PlainValues m →
      m.lookup key = some v → v ≠ .none := fun hm hv =>
    (hm _ (AList.mem_lookup_iff.1 (Option.mem_def.2 hv))).2
  rw [entries_perm_iff]
  constructor
  · intro h key _
    unfold Mapping.get
    rw [h key]
  · intro h key
    by_cases hkey : key ∈ p.keys ++ q.keys
    · have hget := h key hkey
      unfold Mapping.get at hget
      cases hv : p.lookup key with
      | none =>
          cases hw : q.lookup key with
          | none => rfl
          | some w =>
              rw [hv, hw] at hget
              exact absurd hget.symm (hsome hq hw)
      | some v =>
          cases hw : q.lookup key with
          | none =>
              rw [hv, hw] at hget
              exact absurd hget (hsome hp hv)
          | some w =>
              rw [hv, hw] at hget
              exact congrArg some hget
    · rw [List.mem_append, not_or] at hkey
      rw [AList.lookup_eq_none.2 hkey.1, AList.lookup_eq_none.2 hkey.2]

/-- **What the keys tell apart.** -/
theorem eventKey_eq_iff (hp : PlainValues p) (hq : PlainValues q) :
    eventKey kind p = eventKey kind' q ↔ SameClass (· = ·) pyEq (kind, p) (kind', q) := by
  by_cases htask : HasTask p
  · obtain ⟨t, s, o, ht, hs, ho, hkey⟩ := eventKey_task hp htask
    by_cases htask' : HasTask q
    · obtain ⟨t', s', o', ht', hs', ho', hkey'⟩ := eventKey_task hq htask'
      have hagree : (∀ key ∈ ["kanban_task_id", "status", "kanban_outcome"],
          pyEq (p.get key) (q.get key)) ↔ t = t' ∧ s = s' ∧ o = o' := by
        simp only [List.forall_mem_cons, List.not_mem_nil, false_implies, implies_true, and_true,
          pyEq, ht, ht', hs, hs', ho, ho', Except.ok.injEq]
      rw [hkey, hkey', Except.ok.injEq, EventKey.task.injEq, ← hagree]
      refine and_congr_right fun _ => ⟨fun h => Or.inr ⟨htask, htask', h⟩, ?_⟩
      rintro (⟨hno, -⟩ | ⟨-, -, h⟩)
      · exact absurd htask hno
      · exact h
    · obtain ⟨text, -, hkey'⟩ := eventKey_noTask hq htask'
      rw [hkey, hkey']
      refine iff_of_false nofun ?_
      rintro ⟨-, ⟨hno, -⟩ | ⟨-, hyes, -⟩⟩
      · exact hno htask
      · exact htask' hyes
  · obtain ⟨text, htext, hkey⟩ := eventKey_noTask hp htask
    by_cases htask' : HasTask q
    · obtain ⟨t', s', o', -, -, -, hkey'⟩ := eventKey_task hq htask'
      rw [hkey, hkey']
      refine iff_of_false nofun ?_
      rintro ⟨-, ⟨-, hno, -⟩ | ⟨hyes, -⟩⟩
      · exact hno htask'
      · exact htask hyes
    · obtain ⟨text', htext', hkey'⟩ := eventKey_noTask hq htask'
      have hpayload := jsonDumps_eq_iff hp.scalar hq.scalar
      rw [htext, htext', Except.ok.injEq, entries_perm_iff_get hp hq] at hpayload
      rw [hkey, hkey', Except.ok.injEq, EventKey.payload.injEq, hpayload]
      refine and_congr_right fun _ => ⟨fun h => Or.inl ⟨htask, htask', h⟩, ?_⟩
      rintro (⟨-, -, h⟩ | ⟨hyes, -⟩)
      · exact h
      · exact absurd hyes htask

end Keys

/-! ## Calls -/

/-- `store.event` for one event after the other, up to the first call that raises. -/
def Posts (c : ExecutionContext) (events : List (String × Mapping PyVal)) (tr : List CallEvent)
    (o : Except Exc Unit) : Prop :=
  (tr = (events.map fun e => ⟨.event c e.1 e.2, .ok ()⟩) ∧ o = .ok ()) ∨
    ∃ pre e post exc, events = pre ++ e :: post ∧ o = .error exc ∧
      tr = (pre.map fun e => ⟨.event c e.1 e.2, .ok ()⟩) ++ [⟨.event c e.1 e.2, .error exc⟩]

/-- The calls that went through are those before the one that raised. -/
theorem storedEvents_posts {c : ExecutionContext} {events : List (String × Mapping PyVal)}
    {tr : List CallEvent} {o : Except Exc Unit} (h : Posts c events tr o) :
    (o = .ok () ∧ storedEvents tr = events) ∨
      ∃ pre e post exc, events = pre ++ e :: post ∧ o = .error exc ∧ storedEvents tr = pre := by
  have hstored : ∀ es : List (String × Mapping PyVal),
      storedEvents (es.map fun e => (⟨.event c e.1 e.2, .ok ()⟩ : CallEvent)) = es := by
    intro es
    induction es with
    | nil => rfl
    | cons e es ih => rw [List.map_cons, storedEvents_event, ih]
  rcases h with ⟨rfl, rfl⟩ | ⟨pre, e, post, exc, rfl, rfl, rfl⟩
  · exact Or.inl ⟨rfl, hstored events⟩
  · refine Or.inr ⟨pre, e, post, exc, rfl, rfl, ?_⟩
    rw [storedEvents_append, hstored]
    exact List.append_nil pre

theorem returns_postEvents {c : ExecutionContext} {events : List (String × Mapping PyVal)}
    {tr : List CallEvent} {o : Except Exc Unit} :
    Returns (postEvents c events).run tr o ↔ Posts c events tr o := by
  induction events generalizing tr with
  | nil =>
      refine returns_pure.trans ⟨fun h => Or.inl ⟨h.1, h.2⟩, ?_⟩
      rintro (h | ⟨pre, e, post, exc, hsplit, -⟩)
      · exact h
      · cases pre <;> cases hsplit
  | cons e events ih =>
      refine returns_run_bind.trans ?_
      constructor
      · rintro (⟨tr₁, tr₂, u, rfl, hev, hrest⟩ | ⟨exc, hev, rfl⟩)
        · obtain rfl := returns_event.1 hev
          rcases ih.1 hrest with ⟨rfl, rfl⟩ | ⟨pre, e', post, exc, rfl, rfl, rfl⟩
          · exact Or.inl ⟨rfl, rfl⟩
          · exact Or.inr ⟨e :: pre, e', post, exc, rfl, rfl, rfl⟩
        · obtain rfl := returns_event.1 hev
          exact Or.inr ⟨[], e, events, exc, rfl, rfl, rfl⟩
      · rintro (⟨rfl, rfl⟩ | ⟨pre, e', post, exc, hsplit, rfl, rfl⟩)
        · exact Or.inl ⟨[⟨.event c e.1 e.2, .ok ()⟩], _, (), rfl, returns_event.2 rfl,
            ih.2 (Or.inl ⟨rfl, rfl⟩)⟩
        · cases pre with
          | nil =>
              cases hsplit
              exact Or.inr ⟨exc, returns_event.2 rfl, rfl⟩
          | cons e₀ pre =>
              cases hsplit
              exact Or.inl ⟨[⟨.event c e.1 e.2, .ok ()⟩], _, (), rfl, returns_event.2 rfl,
                ih.2 (Or.inr ⟨pre, e', post, exc, rfl, rfl, rfl⟩)⟩

theorem returns_persistEvents {c : ExecutionContext} {events : List (String × RawPayload)}
    {tr : List CallEvent} {o : Except Exc Unit} : Returns (persistEvents c events).run tr o ↔
      (∃ exc, normalizeEvents [] events = .error exc ∧ tr = [] ∧ o = .error exc) ∨
        ∃ stored, normalizeEvents [] events = .ok stored ∧ Posts c stored tr o := by
  refine returns_run_bind.trans ?_
  constructor
  · rintro (⟨tr₁, tr₂, stored, rfl, hkept, hposts⟩ | ⟨exc, hkept, rfl⟩)
    · obtain ⟨rfl, heq⟩ := returns_settle.1 hkept
      exact Or.inr ⟨stored, heq.symm, returns_postEvents.1 hposts⟩
    · obtain ⟨rfl, heq⟩ := returns_settle.1 hkept
      exact Or.inl ⟨exc, heq.symm, rfl, rfl⟩
  · rintro (⟨exc, heq, rfl, rfl⟩ | ⟨stored, heq, hposts⟩)
    · exact Or.inr ⟨exc, returns_settle.2 ⟨rfl, heq.symm⟩, rfl⟩
    · exact Or.inl ⟨[], tr, stored, rfl, returns_settle.2 ⟨rfl, heq.symm⟩,
        returns_postEvents.2 hposts⟩

/-! ## Which events are stored -/

/-- The accepted events, normalized. -/
def normalizedEvents (events : List (String × RawPayload)) : List (String × Mapping PyVal) :=
  events.filterMap fun e =>
    (validateEventPayload e.1 e.2).toOption.map fun payload => (e.1, payload)

/-- An event of a normalized payload, to be persisted. -/
def rawEvent (e : String × Mapping PyVal) : String × RawPayload := (e.1, .mapping e.2)

/-- What `_event_key` makes of an event, for events that have a key. -/
def keyOf (e : String × Mapping PyVal) : EventKey :=
  (eventKey e.1 e.2).toOption.getD (.payload e.1 "")

/-- A normalized event: its payload is accepted as it is. -/
def IsNormalized (e : String × Mapping PyVal) : Prop :=
  validateEventPayload e.1 (.mapping e.2) = .ok e.2 ∧ PlainValues e.2

theorem eventKey_keyOf {e : String × Mapping PyVal} (he : PlainValues e.2) :
    eventKey e.1 e.2 = .ok (keyOf e) := by
  unfold keyOf
  by_cases htask : HasTask e.2
  · obtain ⟨_, _, _, -, -, -, hkey⟩ := eventKey_task he htask
    rw [hkey]
    rfl
  · obtain ⟨_, -, hkey⟩ := eventKey_noTask he htask
    rw [hkey]
    rfl

theorem keyOf_eq_iff {e e' : String × Mapping PyVal} (he : PlainValues e.2)
    (he' : PlainValues e'.2) : SameClass (· = ·) pyEq e e' ↔ keyOf e = keyOf e' := by
  have hiff := @eventKey_eq_iff e.1 e'.1 _ _ he he'
  rw [eventKey_keyOf he, eventKey_keyOf he', Except.ok.injEq] at hiff
  exact hiff.symm

theorem isNormalized_of_validate {kind : String} {payload : RawPayload}
    {normalized : Mapping PyVal} (hscalar : ScalarValues payload.items)
    (h : validateEventPayload kind payload = .ok normalized) : IsNormalized (kind, normalized) := by
  have hitems := validateEventPayload_items h
  refine ⟨validateEventPayload_normalized hitems, fun e he => ?_⟩
  obtain ⟨_, _, -, -, -, -, -, rfl⟩ := validateEventPayload_eq_ok_iff.1 hitems
  rw [entries_withoutNone, List.mem_filter, decide_eq_true_iff] at he
  exact ⟨hscalar e he.1, he.2⟩

/-- Normalized events are normalized and told apart once more. -/
theorem normalizeEvents_normalized {events : List (String × Mapping PyVal)}
    (h : ∀ e ∈ events, IsNormalized e) :
    normalizeEvents [] (events.map rawEvent) = .ok (firsts keyOf [] events) := by
  have hfirsts := @normalizeEvents_eq_firsts _ rawEvent Prod.snd keyOf events
    (fun e he => (h e he).1) (fun e he => eventKey_keyOf (h e he).2) []
  rw [hfirsts]
  exact congrArg Except.ok (List.map_id _)

section Accepted

variable {events : List (String × RawPayload)} (hscalar : ∀ e ∈ events, ScalarValues e.2.items)
  (haccepted : ∀ e ∈ events, ∀ exc, validateEventPayload e.1 e.2 ≠ .error exc)

include haccepted in
/-- Of accepted events none is left out. -/
theorem normalizedEvents_eq : normalizedEvents events = events.map fun e =>
    (e.1, (validateEventPayload e.1 e.2).toOption.getD ∅) := by
  unfold normalizedEvents
  rw [← List.filterMap_eq_map]
  refine List.filterMap_congr fun e he => ?_
  cases hval : validateEventPayload e.1 e.2 with
  | error exc => exact absurd hval (haccepted e he exc)
  | ok normalized => simp [hval, Except.toOption]

include hscalar in
theorem isNormalized_of_mem {e : String × Mapping PyVal} (he : e ∈ normalizedEvents events) :
    IsNormalized e := by
  obtain ⟨raw, hraw, heq⟩ := List.mem_filterMap.1 he
  cases hval : validateEventPayload raw.1 raw.2 with
  | error exc =>
      rw [hval] at heq
      cases heq
  | ok normalized =>
      rw [hval] at heq
      cases heq
      exact isNormalized_of_validate (hscalar raw hraw) hval

include hscalar in
theorem firsts_normalizedEvents : firsts keyOf [] (normalizedEvents events) =
    firstsBy (SameClass (· = ·) pyEq) [] (normalizedEvents events) := by
  refine firsts_eq_firstsBy (fun e he e' he' => ?_) fun k => by simp
  exact keyOf_eq_iff (isNormalized_of_mem hscalar he).2 (isNormalized_of_mem hscalar he').2

include hscalar haccepted in
/-- **Which events are stored**: the first of each class. -/
theorem normalizeEvents_accepted : normalizeEvents [] events =
    .ok (firstsBy (SameClass (· = ·) pyEq) [] (normalizedEvents events)) := by
  let payload : String × RawPayload → Mapping PyVal := fun e =>
    (validateEventPayload e.1 e.2).toOption.getD ∅
  have hval : ∀ e ∈ events, validateEventPayload e.1 e.2 = .ok (payload e) := by
    intro e he
    cases hval : validateEventPayload e.1 e.2 with
    | error exc => exact absurd hval (haccepted e he exc)
    | ok normalized =>
        show _ = Except.ok ((validateEventPayload e.1 e.2).toOption.getD ∅)
        rw [hval]
        rfl
  have hkey : ∀ e ∈ events, eventKey e.1 (payload e) = .ok (keyOf (e.1, payload e)) :=
    fun e he => eventKey_keyOf (isNormalized_of_validate (hscalar e he) (hval e he)).2
  have hfirsts := @normalizeEvents_eq_firsts _ id payload (fun e => keyOf (e.1, payload e)) events
    hval hkey []
  rw [List.map_id] at hfirsts
  rw [hfirsts, ← firsts_normalizedEvents hscalar, normalizedEvents_eq haccepted]
  exact congrArg Except.ok (firsts_map events).symm

end Accepted

/-- An event that is rejected keeps all of them from being stored. -/
theorem normalizeEvents_rejected {events : List (String × RawPayload)}
    (h : ∃ e ∈ events, ∃ exc, validateEventPayload e.1 e.2 = .error exc) :
    ∃ exc, normalizeEvents [] events = .error exc := by
  obtain ⟨e, he, exc, hexc⟩ := h
  cases hnorm : normalizeEvents [] events with
  | error exc => exact ⟨exc, rfl⟩
  | ok stored =>
      obtain ⟨payload, _, hval, -⟩ := normalizeEvents_ok_iff.1 ⟨stored, hnorm⟩ e he
      rw [hexc] at hval
      cases hval

/-! ## The store's own validation -/

/-- Scalars can be sent. -/
theorem jsonBody_ok {p : Mapping PyVal} (hp : ScalarValues p) :
    ∃ body, jsonBody p = .ok body := by
  have hconvert : ∀ entries : List (Sigma fun _ : String => PyVal),
      (∀ e ∈ entries, e.2.IsScalar) → ∃ es, convertEntries PyVal.toJson entries = .ok es := by
    intro entries hentries
    induction entries with
    | nil => exact ⟨[], rfl⟩
    | cons e entries ih =>
        rw [List.forall_mem_cons] at hentries
        obtain ⟨es, hes⟩ := ih hentries.2
        have hvalue : ∃ v, e.2.toJson = .ok v := by
          have hscalar := hentries.1
          cases hv : e.2 with
          | none | str s | bool b | int n => exact ⟨_, rfl⟩
          | float x =>
              rw [hv] at hscalar
              exact hscalar.elim
          | object cls text =>
              rw [hv] at hscalar
              exact hscalar.elim
        obtain ⟨v, hv⟩ := hvalue
        refine ⟨⟨e.1, v⟩ :: es, ?_⟩
        unfold convertEntries
        rw [hv, hes]
        rfl
  obtain ⟨es, hes⟩ := hconvert p.entries hp
  unfold jsonBody
  split
  · exact ⟨_, rfl⟩
  · rename_i exc hexc
    rw [hes] at hexc
    cases hexc

/-- The store accepts a normalized event and sends the payload it was given. -/
theorem event_of_normalized {e : String × Mapping PyVal} (he : IsNormalized e) :
    ∃ body, jsonBody e.2 = .ok body ∧ ∀ c d now db, SupabaseStore.event d now c e.1 e.2 db =
      (let (r, db') := post d now
        (.insertEvent ⟨c.runId, c.linearIssueId, c.agent, e.1, body⟩) db
      (r.map fun _ => (), db')) := by
  obtain ⟨body, hbody⟩ := jsonBody_ok he.2.scalar
  refine ⟨body, hbody, fun c d now db => ?_⟩
  have hvalid : validateEventPayload e.1 (.mapping e.2) >>= jsonBody = .ok body := by
    rw [he.1]
    exact hbody
  unfold SupabaseStore.event
  rw [hvalid]

/-! ## Persisting events -/

/-- **What `_persist_events` stores.** For events whose payloads hold scalars: if one is rejected,
nothing is called. Otherwise `store.event` is called for the first event of each class, in the order
they came in, up to the first call that raises; payloads are equal as JSON values, which tells
booleans from integers, and task, status and outcome agree as Python's `==` has it, which does not.
The store's second validation accepts each payload and sends it as it is, and persisting again what
was stored makes the same calls. -/
theorem events_persisted (c : ExecutionContext) (events : List (String × RawPayload))
    (hscalar : ∀ e ∈ events, ScalarValues e.2.items) :
    ((∃ e ∈ events, ∃ exc, validateEventPayload e.1 e.2 = .error exc) →
      ∃ exc, ∀ tr o, Returns (persistEvents c events).run tr o ↔ tr = [] ∧ o = .error exc) ∧
    ((∀ e ∈ events, ∀ exc, validateEventPayload e.1 e.2 ≠ .error exc) →
      let stored := firstsBy (SameClass (· = ·) pyEq) [] (normalizedEvents events)
      (∀ tr o, Returns (persistEvents c events).run tr o ↔ Posts c stored tr o) ∧
      (∀ tr o, Posts c stored tr o → (o = .ok () ∧ storedEvents tr = stored) ∨
        ∃ pre e post exc, stored = pre ++ e :: post ∧ o = .error exc ∧ storedEvents tr = pre) ∧
      (∀ e ∈ stored, validateEventPayload e.1 (.mapping e.2) = .ok e.2 ∧
        ∃ body, jsonBody e.2 = .ok body ∧ ∀ d now db, SupabaseStore.event d now c e.1 e.2 db =
          (let (r, db') := post d now
            (.insertEvent ⟨c.runId, c.linearIssueId, c.agent, e.1, body⟩) db
          (r.map fun _ => (), db'))) ∧
      ∀ again, again <+: stored → ∀ tr o,
        Returns (persistEvents c (again.map rawEvent)).run tr o ↔ Posts c again tr o) := by
  have hreturns : ∀ {es : List (String × RawPayload)} {stored : List (String × Mapping PyVal)},
      normalizeEvents [] es = .ok stored → ∀ tr o,
        Returns (persistEvents c es).run tr o ↔ Posts c stored tr o := by
    intro es stored hnorm tr o
    rw [returns_persistEvents, hnorm]
    constructor
    · rintro (⟨exc, heq, -⟩ | ⟨stored', heq, hposts⟩)
      · cases heq
      · cases heq
        exact hposts
    · exact fun hposts => Or.inr ⟨stored, rfl, hposts⟩
  refine ⟨fun hrejected => ?_, fun haccepted => ?_⟩
  · obtain ⟨exc, hnorm⟩ := normalizeEvents_rejected hrejected
    refine ⟨exc, fun tr o => ?_⟩
    rw [returns_persistEvents, hnorm]
    constructor
    · rintro (⟨exc', heq, htr, ho⟩ | ⟨stored, heq, -⟩)
      · cases heq
        exact ⟨htr, ho⟩
      · cases heq
    · exact fun ⟨htr, ho⟩ => Or.inl ⟨exc, rfl, htr, ho⟩
  · intro stored
    have hnormalized : ∀ e ∈ stored, IsNormalized e := fun e he =>
      isNormalized_of_mem hscalar ((firstsBy_sublist _ _).subset he)
    refine ⟨hreturns (normalizeEvents_accepted hscalar haccepted), fun tr o => storedEvents_posts,
      fun e he => ⟨(hnormalized e he).1, ?_⟩, fun again hagain => hreturns ?_⟩
    · obtain ⟨body, hbody, hevent⟩ := event_of_normalized (hnormalized e he)
      exact ⟨body, hbody, fun d now db => hevent c d now db⟩
    · have hsub : again.Sublist (firsts keyOf [] (normalizedEvents events)) := by
        rw [firsts_normalizedEvents hscalar]
        exact hagain.sublist
      rw [normalizeEvents_normalized fun e he => hnormalized e (hagain.subset he),
        firsts_of_sublist hsub]

/-- Of two normalized events the second is dropped exactly when they are of one class. -/
theorem persist_two {c : ExecutionContext} {e e' : String × Mapping PyVal} (he : IsNormalized e)
    (he' : IsNormalized e') :
    Returns (persistEvents c [rawEvent e, rawEvent e']).run [⟨.event c e.1 e.2, .ok ()⟩] (.ok ()) ↔
      SameClass (· = ·) pyEq e e' := by
  have hnormalized : ∀ d ∈ [e, e'], IsNormalized d := by
    intro d hd
    rcases List.mem_pair.1 hd with rfl | rfl
    · exact he
    · exact he'
  have hnorm : normalizeEvents [] [rawEvent e, rawEvent e'] =
      .ok (firsts keyOf [] [e, e']) := normalizeEvents_normalized hnormalized
  rw [keyOf_eq_iff he.2 he'.2, returns_persistEvents, hnorm]
  have hfirst : firsts keyOf [] [e, e'] = e :: firsts keyOf [keyOf e] [e'] :=
    firsts_cons_of_not_mem List.not_mem_nil _
  rw [hfirst]
  by_cases hkey : keyOf e = keyOf e'
  · have hnone : firsts keyOf [keyOf e] [e'] = [] := by
      rw [firsts_cons_of_mem (List.mem_singleton.2 hkey.symm)]
      rfl
    rw [hnone]
    exact iff_of_true (Or.inr ⟨[e], rfl, Or.inl ⟨rfl, rfl⟩⟩) hkey
  · have hboth : firsts keyOf [keyOf e] [e'] = [e'] := by
      rw [firsts_cons_of_not_mem fun h => hkey (List.mem_singleton.1 h).symm]
      rfl
    rw [hboth]
    refine iff_of_false ?_ hkey
    rintro (⟨exc, heq, -⟩ | ⟨stored, heq, hposts⟩)
    · cases heq
    · cases heq
      rcases hposts with ⟨hcalls, -⟩ | ⟨_, _, _, _, -, ho, -⟩
      · cases hcalls
      · cases ho

/-- The payload of a dispatched task. -/
def taskPayload (status : PyVal) : Mapping PyVal :=
  .mk [⟨"kanban_task_id", .str "t_1"⟩, ⟨"status", status⟩]

/-- The payload of an approved review. -/
def approvedPayload (reviewer : PyVal) : Mapping PyVal :=
  .mk [⟨"review_status", .str "approved"⟩, ⟨"reviewer", reviewer⟩]

/-- The same dispatch twice, and a review whose reviewer is unknown. -/
def twiceDispatched : List (String × RawPayload) := [
  ("kanban.dispatched", .mapping (taskPayload (.str "ready"))),
  ("review.completed", .mapping (approvedPayload .none)),
  ("kanban.dispatched", .mapping (taskPayload (.str "ready")))]

theorem scalarValues_two {key key' : String} {v v' : PyVal} {h : ([key, key']).Nodup}
    (hv : v.IsScalar) (hv' : v'.IsScalar) :
    ScalarValues (.mk [⟨key, v⟩, ⟨key', v'⟩] h) := by
  intro e he
  rcases List.mem_pair.1 he with rfl | rfl
  · exact hv
  · exact hv'

/-- The second dispatch is dropped, and the unknown reviewer too. -/
theorem twiceDispatched_persisted : twiceDispatched.length = 3 ∧ ∀ tr o,
    Returns (persistEvents sampleContext twiceDispatched).run tr o ↔
      Posts sampleContext [("kanban.dispatched", taskPayload (.str "ready")),
        ("review.completed", .mk [⟨"review_status", .str "approved"⟩])] tr o := by
  have hscalar : ∀ e ∈ twiceDispatched, ScalarValues e.2.items := by
    intro e he
    simp only [twiceDispatched, List.mem_cons, List.not_mem_nil, or_false] at he
    rcases he with rfl | rfl | rfl <;> exact scalarValues_two trivial trivial
  have haccepted : ∀ e ∈ twiceDispatched, ∀ exc, validateEventPayload e.1 e.2 ≠ .error exc := by
    intro e he exc hexc
    simp only [twiceDispatched, List.mem_cons, List.not_mem_nil, or_false] at he
    rcases he with rfl | rfl | rfl <;> cases hexc
  have hstored : firstsBy (SameClass (· = ·) pyEq) [] (normalizedEvents twiceDispatched) =
      [("kanban.dispatched", taskPayload (.str "ready")),
        ("review.completed", .mk [⟨"review_status", .str "approved"⟩])] := by
    rfl
  have hmain := (events_persisted sampleContext twiceDispatched hscalar).2 haccepted
  rw [hstored] at hmain
  exact ⟨rfl, hmain.1⟩

/-- A flag or a number where a text is expected passes for a reviewer. -/
theorem isNormalized_approved {reviewer : PyVal} (h : reviewer = .bool true ∨ reviewer = .int 1) :
    IsNormalized ("review.completed", approvedPayload reviewer) := by
  rcases h with rfl | rfl
  all_goals
    refine ⟨rfl, fun e he => ?_⟩
    rcases List.mem_pair.1 he with rfl | rfl <;> exact ⟨trivial, nofun⟩

/-- And for a status. -/
theorem isNormalized_task {status : PyVal} (h : status = .bool true ∨ status = .int 1) :
    IsNormalized ("kanban.dispatched", taskPayload status) := by
  rcases h with rfl | rfl
  all_goals
    refine ⟨rfl, fun e he => ?_⟩
    rcases List.mem_pair.1 he with rfl | rfl <;> exact ⟨trivial, nofun⟩

/-- **The classes do not go by one notion of equality.** With `True` equal to `1` two reviews are of
one class, but both are stored; with `True` other than `1` two dispatches are of different classes,
but only one is stored. -/
theorem no_one_equality : ¬ ∃ equal : PyVal → PyVal → Prop, (∀ v, equal v v) ∧
    ∀ (c : ExecutionContext) (e e' : String × Mapping PyVal), IsNormalized e → IsNormalized e' →
      (Returns (persistEvents c [rawEvent e, rawEvent e']).run
        [⟨.event c e.1 e.2, .ok ()⟩] (.ok ()) ↔ SameClass equal equal e e') := by
  rintro ⟨equal, hrefl, hclass⟩
  have hclass' : ∀ e e', IsNormalized e → IsNormalized e' →
      (SameClass (· = ·) pyEq e e' ↔ SameClass equal equal e e') :=
    fun e e' he he' => (persist_two he he').symm.trans (hclass sampleContext e e' he he')
  by_cases hone : equal (.bool true) (.int 1)
  · have hsame : SameClass equal equal ("review.completed", approvedPayload (.bool true))
        ("review.completed", approvedPayload (.int 1)) := by
      refine ⟨rfl, Or.inl ⟨by decide, by decide, fun key hkey => ?_⟩⟩
      have hkeys : key ∈ ["review_status", "reviewer"] :=
        (List.mem_append.1 hkey).elim id id
      rcases List.mem_pair.1 hkeys with rfl | rfl
      · exact hrefl (.str "approved")
      · exact hone
    have hone' := (hclass' _ _ (isNormalized_approved (Or.inl rfl))
      (isNormalized_approved (Or.inr rfl))).2 hsame
    exact absurd hone' (by decide)
  · have hsame : SameClass (· = ·) pyEq ("kanban.dispatched", taskPayload (.bool true))
        ("kanban.dispatched", taskPayload (.int 1)) := by
      refine ⟨rfl, Or.inr ⟨by decide, by decide, fun key hkey => ?_⟩⟩
      simp only [List.mem_cons, List.not_mem_nil, or_false] at hkey
      rcases hkey with rfl | rfl | rfl <;> rfl
    obtain ⟨-, ⟨hno, -⟩ | ⟨-, -, hagree⟩⟩ := (hclass' _ _ (isNormalized_task (Or.inl rfl))
      (isNormalized_task (Or.inr rfl))).1 hsame
    · exact hno (by decide)
    · exact hone (hagree "status" (by decide))

end HermesRuntime
