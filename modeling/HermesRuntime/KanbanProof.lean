import HermesRuntime.Kanban
import HermesRuntime.PayloadsProof

/-!
# The events of the Kanban adapter

Every event of the adapter has one payload shape, with an assignee and a run outcome where the
snapshot has them. Only `kanban.dispatched` and `kanban.timeout` have no place for an outcome.

* `accepted_eventPayload_iff` — when the shape fits an event type.
* `pollTask_events` — the loop adds one `kanban.status_changed` for each change.
* `kanban_events_accepted_iff` — when all events of an adapter are accepted.
-/

namespace HermesRuntime

/-! ## Acceptable parts -/

/-- `s` is an acceptable value of the field `key`. -/
def FieldOk (key s : String) : Prop := Acceptable "kanban.completed" key (.str s)

instance (key s : String) : Decidable (FieldOk key s) := inferInstanceAs (Decidable (_ = _))

/-- The fields of the context are acceptable. -/
structure ContextOk (c : ExecutionContext) : Prop where
  runId : FieldOk "run_id" c.runId
  linearIssueId : FieldOk "linear_issue_id" c.linearIssueId
  agent : FieldOk "agent" c.agent

/-- The texts of the allowlisted metadata are acceptable. -/
def MetadataOk (metadata : Mapping PyVal) : Prop :=
  ∀ name ∈ allowedResultFields, ∀ s, stringField metadata name = some s → FieldOk name s

/-- The task id of the snapshot has the right format, and its other texts are acceptable. -/
structure SnapshotOk (s : KanbanTaskSnapshot) : Prop where
  taskId : isKanbanTaskId s.taskId = true
  status : FieldOk "status" s.status
  assignee : ∀ x, truthy s.assignee = some x → FieldOk "assignee" x
  outcome : ∀ x, truthy s.outcome = some x → FieldOk "kanban_outcome" x
  metadata : MetadataOk s.metadata
  runMetadata : ∀ run, s.latestRun = some run → MetadataOk run.metadata

/-- A task id of the right format is acceptable unless it contains a secret word. -/
theorem fieldOk_taskId_iff {s : String} (h : isKanbanTaskId s = true) :
    FieldOk "kanban_task_id" s ↔ hasSecretWord s = false := by
  have hne : s ≠ "" := by
    intro heq
    rw [heq] at h
    exact absurd h (by decide)
  have hpat : idPatterns.lookup "kanban_task_id" = some isKanbanTaskId := rfl
  rw [FieldOk, acceptable_text_iff (by decide) rfl (by decide), hpat]
  exact ⟨fun hok => hok.1.2, fun hclean => ⟨⟨hne, hclean⟩, h⟩⟩

/-! ## Payloads -/

theorem mem_setText {payload : Mapping PyVal} {key : String} {text : Option String}
    {e : Sigma fun _ : String => PyVal} (h : e ∈ (payload.setText key text).entries) :
    (∃ s, truthy text = some s ∧ e = ⟨key, .str s⟩) ∨ e ∈ payload.entries := by
  unfold Mapping.setText at h
  cases ht : truthy text with
  | none =>
      rw [ht] at h
      exact Or.inr h
  | some s =>
      rw [ht] at h
      rcases Mapping.mem_set.1 h with rfl | ⟨he, -⟩
      · exact Or.inl ⟨s, rfl, rfl⟩
      · exact Or.inr he

theorem mem_keys_setText {payload : Mapping PyVal} {key key' : String} {text : Option String} :
    key' ∈ (payload.setText key text).keys ↔
      (key' = key ∧ (truthy text).isSome) ∨ key' ∈ payload.keys := by
  unfold Mapping.setText
  cases truthy text with
  | none => simp
  | some s => simp [Mapping.mem_keys_set]

/-- The fields every event has. -/
def baseFields : List String := ["run_id", "linear_issue_id", "agent", "kanban_task_id", "status"]

theorem mem_keys_eventPayload {c : ExecutionContext} {s : KanbanTaskSnapshot}
    {extra : Mapping PyVal} {key : String} :
    key ∈ (eventPayload c s extra).keys ↔
      key ∈ (withoutNone extra).keys ∨ (key = "kanban_outcome" ∧ (truthy s.outcome).isSome) ∨
        (key = "assignee" ∧ (truthy s.assignee).isSome) ∨ key ∈ baseFields := by
  unfold eventPayload
  rw [Mapping.mem_keys_update, mem_keys_setText, mem_keys_setText]
  exact Iff.rfl

/-- Extra fields the adapter may add. -/
def ExtraOk (extra : Mapping PyVal) : Prop :=
  ∀ e ∈ extra.entries, e.1 ∈ "kanban_outcome" :: allowedResultFields ∧
    ∃ x, e.2 = .str x ∧ FieldOk e.1 x

theorem ExtraOk.not_mem {extra : Mapping PyVal} (h : ExtraOk extra) {key : String}
    (hkey : key ∉ "kanban_outcome" :: allowedResultFields) : key ∉ extra.keys := by
  intro hmem
  obtain ⟨e, he, rfl⟩ := Mapping.mem_keys.1 hmem
  exact hkey (h e he).1

theorem extraOk_empty : ExtraOk ∅ := fun _ he => absurd he List.not_mem_nil

/-- What an entry of an event holds: the task id, or an acceptable string. -/
theorem entry_eventPayload {c : ExecutionContext} {s : KanbanTaskSnapshot} {extra : Mapping PyVal}
    (hc : ContextOk c) (hs : SnapshotOk s) (hx : ExtraOk extra)
    {e : Sigma fun _ : String => PyVal} (he : e ∈ (eventPayload c s extra).entries) :
    e = ⟨"kanban_task_id", .str s.taskId⟩ ∨
      (e.1 ≠ "environment" ∧ e.1 ≠ "reason" ∧ ∃ x, e.2 = .str x ∧ FieldOk e.1 x) := by
  have field : ∀ {key x : String}, key ≠ "environment" → key ≠ "reason" → FieldOk key x →
      (⟨key, .str x⟩ : Sigma fun _ : String => PyVal) = ⟨"kanban_task_id", .str s.taskId⟩ ∨
        (key ≠ "environment" ∧ key ≠ "reason" ∧ ∃ y, PyVal.str x = .str y ∧ FieldOk key y) :=
    fun henv hreason hok => Or.inr ⟨henv, hreason, _, rfl, hok⟩
  unfold eventPayload at he
  rcases Mapping.mem_update.1 he with he | ⟨he, -⟩
  · right
    rw [entries_withoutNone, List.mem_filter] at he
    obtain ⟨hkey, hval⟩ := hx e he.1
    refine ⟨?_, ?_, hval⟩
    · intro heq
      rw [heq] at hkey
      exact absurd hkey (by decide)
    · intro heq
      rw [heq] at hkey
      exact absurd hkey (by decide)
  rcases mem_setText he with ⟨x, hout, rfl⟩ | he
  · exact field (by decide) (by decide) (hs.outcome x hout)
  rcases mem_setText he with ⟨x, hass, rfl⟩ | he
  · exact field (by decide) (by decide) (hs.assignee x hass)
  simp only [List.mem_cons, List.not_mem_nil, or_false] at he
  rcases he with rfl | rfl | rfl | rfl | rfl
  · exact field (by decide) (by decide) hc.runId
  · exact field (by decide) (by decide) hc.linearIssueId
  · exact field (by decide) (by decide) hc.agent
  · exact Or.inl rfl
  · exact field (by decide) (by decide) hs.status

theorem mem_setText_of_mem {payload : Mapping PyVal} {key : String} {text : Option String}
    {e : Sigma fun _ : String => PyVal} (hne : e.1 ≠ key) (he : e ∈ payload.entries) :
    e ∈ (payload.setText key text).entries := by
  unfold Mapping.setText
  split
  · exact Mapping.mem_set.2 (Or.inr ⟨he, hne⟩)
  · exact he

/-- The fields an event has whatever its snapshot, unless an extra field takes their place. -/
theorem base_mem_eventPayload {c : ExecutionContext} {s : KanbanTaskSnapshot}
    {extra : Mapping PyVal} {e : Sigma fun _ : String => PyVal}
    (he : e ∈ ([⟨"run_id", .str c.runId⟩, ⟨"linear_issue_id", .str c.linearIssueId⟩,
      ⟨"agent", .str c.agent⟩, ⟨"kanban_task_id", .str s.taskId⟩, ⟨"status", .str s.status⟩] :
        List (Sigma fun _ : String => PyVal)))
    (hx : e.1 ∉ extra.keys) : e ∈ (eventPayload c s extra).entries := by
  have hbase : e.1 ∈ baseFields := List.mem_map_of_mem (f := Sigma.fst) he
  have hassignee : e.1 ≠ "assignee" := fun heq => absurd (heq ▸ hbase) (by decide)
  have houtcome : e.1 ≠ "kanban_outcome" := fun heq => absurd (heq ▸ hbase) (by decide)
  unfold eventPayload
  refine Mapping.mem_update.2
    (Or.inr ⟨mem_setText_of_mem houtcome (mem_setText_of_mem hassignee he), fun hkey => ?_⟩)
  obtain ⟨e', he', hek⟩ := List.mem_map.1 hkey
  rw [entries_withoutNone, List.mem_filter] at he'
  exact hx (Mapping.mem_keys.2 ⟨e', he'.1, hek⟩)

theorem taskId_mem_eventPayload {c : ExecutionContext} {s : KanbanTaskSnapshot}
    {extra : Mapping PyVal} (hx : "kanban_task_id" ∉ extra.keys) :
    (⟨"kanban_task_id", .str s.taskId⟩ : Sigma fun _ : String => PyVal) ∈
      (eventPayload c s extra).entries := base_mem_eventPayload (by simp) hx

/-- **When an event of the adapter is accepted**: its fields are those of its type, and its task
id contains no secret word. -/
theorem accepted_eventPayload_iff {kind : String} {required optional : List String}
    (hf : eventFields.lookup kind = some (required, optional)) (hd : kind ≠ "agent.dispatched")
    {c : ExecutionContext} {s : KanbanTaskSnapshot} {extra : Mapping PyVal} (hc : ContextOk c)
    (hs : SnapshotOk s) (hx : ExtraOk extra) :
    Accepted kind (eventPayload c s extra) ↔ hasSecretWord s.taskId = false ∧
      (∀ key ∈ (eventPayload c s extra).keys, key ∈ required ++ optional) ∧
      ∀ key ∈ required, key ∈ (eventPayload c s extra).keys := by
  -- Every value is a string, so nothing is dropped and only the fields are left to check.
  have hstr : ∀ e ∈ (eventPayload c s extra).entries, e.2 ≠ .none := by
    intro e he
    rcases entry_eventPayload hc hs hx he with rfl | ⟨-, -, x, hx, -⟩
    · exact nofun
    · rw [hx]
      exact nofun
  have hwhole : withoutNone (eventPayload c s extra) = eventPayload c s extra := by
    apply AList.ext
    rw [entries_withoutNone, List.filter_eq_self]
    intro e he
    exact decide_eq_true (hstr e he)
  have hvals : (∀ e ∈ (eventPayload c s extra).entries, e.2 ≠ .none → Acceptable kind e.1 e.2) ↔
      hasSecretWord s.taskId = false := by
    have htask : Acceptable kind "kanban_task_id" (.str s.taskId) ↔
        hasSecretWord s.taskId = false := by
      rw [← fieldOk_taskId_iff hs.taskId, FieldOk]
      exact acceptable_congr (by decide) (by decide) _
    constructor
    · intro h
      exact htask.1 (h _ (taskId_mem_eventPayload (hx.not_mem (by decide))) nofun)
    · intro h e he _
      rcases entry_eventPayload hc hs hx he with rfl | ⟨henv, hreason, x, hval, hok⟩
      · exact htask.2 h
      · rw [hval]
        exact (acceptable_congr henv hreason _).1 hok
  rw [accepted_iff hf hd, hvals, hwhole]
  exact and_left_comm

/-- Events of the types that have a place for a run outcome fit in any case. -/
theorem accepted_with_outcome {kind : String} {required optional : List String}
    (hf : eventFields.lookup kind = some (required, optional)) (hd : kind ≠ "agent.dispatched")
    {c : ExecutionContext} {s : KanbanTaskSnapshot} {extra : Mapping PyVal} (hc : ContextOk c)
    (hs : SnapshotOk s) (hx : ExtraOk extra)
    (hallowed : ∀ key ∈ "kanban_outcome" :: "assignee" :: baseFields, key ∈ required ++ optional)
    (hextra : ∀ key ∈ extra.keys, key ∈ required ++ optional)
    (hreq : ∀ key ∈ required, key ∈ baseFields ∨ key ∈ (withoutNone extra).keys) :
    Accepted kind (eventPayload c s extra) ↔ hasSecretWord s.taskId = false := by
  rw [accepted_eventPayload_iff hf hd hc hs hx]
  refine and_iff_left ⟨fun key hkey => ?_, fun key hkey => ?_⟩
  · rcases mem_keys_eventPayload.1 hkey with h | ⟨rfl, -⟩ | ⟨rfl, -⟩ | h
    · obtain ⟨e, he, rfl⟩ := Mapping.mem_keys.1 h
      rw [entries_withoutNone, List.mem_filter] at he
      exact hextra _ (List.mem_map_of_mem he.1)
    · exact hallowed _ (by decide)
    · exact hallowed _ (by decide)
    · exact hallowed _ (List.mem_cons_of_mem _ (List.mem_cons_of_mem _ h))
  · rcases hreq key hkey with h | h
    · exact mem_keys_eventPayload.2 (Or.inr (Or.inr (Or.inr h)))
    · exact mem_keys_eventPayload.2 (Or.inl h)

/-! ### Events without extra fields -/

theorem mem_setText_iff {payload : Mapping PyVal} {key : String} {text : Option String}
    (hnew : key ∉ payload.keys) {e : Sigma fun _ : String => PyVal} :
    e ∈ (payload.setText key text).entries ↔
      (∃ x, truthy text = some x ∧ e = ⟨key, .str x⟩) ∨ e ∈ payload.entries := by
  refine ⟨mem_setText, ?_⟩
  rintro (⟨x, hx, rfl⟩ | he)
  · unfold Mapping.setText
    rw [hx]
    exact Mapping.mem_set.2 (Or.inl rfl)
  · exact mem_setText_of_mem (fun heq => hnew (heq ▸ List.mem_map_of_mem he)) he

/-- What an event without extra fields holds. -/
theorem mem_eventPayload_empty {c : ExecutionContext} {s : KanbanTaskSnapshot}
    {e : Sigma fun _ : String => PyVal} : e ∈ (eventPayload c s ∅).entries ↔
      (∃ x, truthy s.outcome = some x ∧ e = ⟨"kanban_outcome", .str x⟩) ∨
        (∃ x, truthy s.assignee = some x ∧ e = ⟨"assignee", .str x⟩) ∨
          e ∈ ([⟨"run_id", .str c.runId⟩, ⟨"linear_issue_id", .str c.linearIssueId⟩,
            ⟨"agent", .str c.agent⟩, ⟨"kanban_task_id", .str s.taskId⟩,
            ⟨"status", .str s.status⟩] : List (Sigma fun _ : String => PyVal)) := by
  show e ∈ (Mapping.setText (Mapping.setText _ "assignee" s.assignee) "kanban_outcome"
    s.outcome).entries ↔ _
  rw [mem_setText_iff, mem_setText_iff (by simp [AList.keys, List.keys])]
  rw [mem_keys_setText]
  simp [AList.keys, List.keys]

/-- The texts that the events of a snapshot carry are acceptable. -/
structure TextsOk (c : ExecutionContext) (s : KanbanTaskSnapshot) : Prop where
  runId : FieldOk "run_id" c.runId
  linearIssueId : FieldOk "linear_issue_id" c.linearIssueId
  agent : FieldOk "agent" c.agent
  taskId : FieldOk "kanban_task_id" s.taskId
  status : FieldOk "status" s.status
  assignee : ∀ x, truthy s.assignee = some x → FieldOk "assignee" x
  outcome : ∀ x, truthy s.outcome = some x → FieldOk "kanban_outcome" x

/-- Of an acceptable snapshot only the task id may still carry a secret word. -/
theorem textsOk_iff {c : ExecutionContext} {s : KanbanTaskSnapshot} (hc : ContextOk c)
    (hs : SnapshotOk s) : TextsOk c s ↔ hasSecretWord s.taskId = false := by
  rw [← fieldOk_taskId_iff hs.taskId]
  exact ⟨fun h => h.taskId, fun h =>
    ⟨hc.runId, hc.linearIssueId, hc.agent, h, hs.status, hs.assignee, hs.outcome⟩⟩

/-- **When an event without extra fields is accepted**: its texts are acceptable, and there is no
run outcome where its type has no place for one. -/
theorem accepted_plain_iff {kind : String} {required optional : List String}
    (hf : eventFields.lookup kind = some (required, optional)) (hd : kind ≠ "agent.dispatched")
    {c : ExecutionContext} {s : KanbanTaskSnapshot}
    (hallowed : ∀ key ∈ "assignee" :: baseFields, key ∈ required ++ optional)
    (hreq : ∀ key ∈ required, key ∈ baseFields) :
    Accepted kind (eventPayload c s ∅) ↔ TextsOk c s ∧
      ("kanban_outcome" ∉ required ++ optional → truthy s.outcome = none) := by
  have hkeys : (∀ key ∈ (eventPayload c s ∅).keys, key ∈ required ++ optional) ↔
      ("kanban_outcome" ∉ required ++ optional → truthy s.outcome = none) := by
    constructor
    · intro h hno
      by_contra hsome
      refine hno (h _ (mem_keys_eventPayload.2 (Or.inr (Or.inl ⟨rfl, ?_⟩))))
      exact Option.isSome_iff_ne_none.2 hsome
    · intro hnone key hkey
      rcases mem_keys_eventPayload.1 hkey with h | ⟨rfl, h⟩ | ⟨rfl, -⟩ | h
      · exact absurd h List.not_mem_nil
      · by_contra hno
        rw [hnone hno] at h
        cases h
      · exact hallowed _ (by decide)
      · exact hallowed _ (List.mem_cons_of_mem _ h)
  have hvals : (∀ e ∈ (eventPayload c s ∅).entries, e.2 ≠ .none → Acceptable kind e.1 e.2) ↔
      TextsOk c s := by
    have field : ∀ key ∈ "kanban_outcome" :: "assignee" :: baseFields, ∀ {x : String},
        Acceptable kind key (.str x) ↔ FieldOk key x := by
      intro key hkey x
      exact acceptable_congr (fun heq => absurd (heq ▸ hkey) (by decide))
        (fun heq => absurd (heq ▸ hkey) (by decide)) _
    constructor
    · intro h
      have hmem : ∀ key ∈ "kanban_outcome" :: "assignee" :: baseFields, ∀ {x : String},
          (⟨key, .str x⟩ : Sigma fun _ : String => PyVal) ∈ (eventPayload c s ∅).entries →
            FieldOk key x := fun key hkey _ he => (field key hkey).1 (h _ he nofun)
      exact {
        runId := hmem "run_id" (by decide) (mem_eventPayload_empty.2 (by simp))
        linearIssueId := hmem "linear_issue_id" (by decide) (mem_eventPayload_empty.2 (by simp))
        agent := hmem "agent" (by decide) (mem_eventPayload_empty.2 (by simp))
        taskId := hmem "kanban_task_id" (by decide) (mem_eventPayload_empty.2 (by simp))
        status := hmem "status" (by decide) (mem_eventPayload_empty.2 (by simp))
        assignee := fun x hx => hmem "assignee" (by decide)
          (mem_eventPayload_empty.2 (Or.inr (Or.inl ⟨x, hx, rfl⟩)))
        outcome := fun x hx => hmem "kanban_outcome" (by decide)
          (mem_eventPayload_empty.2 (Or.inl ⟨x, hx, rfl⟩)) }
    · intro h e he _
      rcases mem_eventPayload_empty.1 he with ⟨x, hx, rfl⟩ | ⟨x, hx, rfl⟩ | he
      · exact (field "kanban_outcome" (by decide)).2 (h.outcome x hx)
      · exact (field "assignee" (by decide)).2 (h.assignee x hx)
      simp only [List.mem_cons, List.not_mem_nil, or_false] at he
      rcases he with rfl | rfl | rfl | rfl | rfl
      · exact (field "run_id" (by decide)).2 h.runId
      · exact (field "linear_issue_id" (by decide)).2 h.linearIssueId
      · exact (field "agent" (by decide)).2 h.agent
      · exact (field "kanban_task_id" (by decide)).2 h.taskId
      · exact (field "status" (by decide)).2 h.status
  -- Every value is a string, so the required fields are not dropped.
  have hwhole : withoutNone (eventPayload c s ∅) = eventPayload c s ∅ := by
    apply AList.ext
    rw [entries_withoutNone, List.filter_eq_self]
    intro e he
    refine decide_eq_true ?_
    rcases mem_eventPayload_empty.1 he with ⟨x, -, rfl⟩ | ⟨x, -, rfl⟩ | he
    · exact nofun
    · exact nofun
    simp only [List.mem_cons, List.not_mem_nil, or_false] at he
    rcases he with rfl | rfl | rfl | rfl | rfl <;> exact nofun
  have hrequired : ∀ key ∈ required, key ∈ (withoutNone (eventPayload c s ∅)).keys := by
    intro key hkey
    rw [hwhole]
    exact mem_keys_eventPayload.2 (Or.inr (Or.inr (Or.inr (hreq key hkey))))
  rw [accepted_iff hf hd, hkeys, hvals]
  exact ⟨fun h => ⟨h.2.1, h.1⟩, fun h => ⟨h.2, h.1, hrequired⟩⟩

/-- Events of the types without a place for a run outcome fit when there is none. -/
theorem accepted_without_outcome {kind : String} {required optional : List String}
    (hf : eventFields.lookup kind = some (required, optional)) (hd : kind ≠ "agent.dispatched")
    {c : ExecutionContext} {s : KanbanTaskSnapshot} (hc : ContextOk c) (hs : SnapshotOk s)
    (hallowed : ∀ key ∈ "assignee" :: baseFields, key ∈ required ++ optional)
    (hreq : ∀ key ∈ required, key ∈ baseFields) (hno : "kanban_outcome" ∉ required ++ optional) :
    Accepted kind (eventPayload c s ∅) ↔
      hasSecretWord s.taskId = false ∧ truthy s.outcome = none := by
  rw [accepted_plain_iff hf hd hallowed hreq, textsOk_iff hc hs]
  exact and_congr_right' ⟨fun h => h hno, fun h _ => h⟩

/-! ## The fields of a finished task -/

theorem mem_ofOptions {β : Type} {items : List (String × Option β)}
    {h : (items.map Prod.fst).Nodup} {e : Sigma fun _ : String => β} :
    e ∈ (Mapping.ofOptions items h).entries ↔ (e.1, some e.2) ∈ items := by
  show e ∈ items.filterMap _ ↔ _
  rw [List.mem_filterMap]
  constructor
  · rintro ⟨⟨key, value⟩, hmem, heq⟩
    cases value with
    | none => cases heq
    | some v =>
        cases heq
        exact hmem
  · intro hmem
    exact ⟨_, hmem, rfl⟩

theorem mem_resultFields {metadata : Mapping PyVal} {e : Sigma fun _ : String => String} :
    e ∈ (resultFields metadata).entries ↔
      e.1 ∈ allowedResultFields ∧ stringField metadata e.1 = some e.2 := by
  unfold resultFields
  rw [mem_ofOptions, List.mem_map]
  constructor
  · rintro ⟨name, hname, heq⟩
    obtain ⟨rfl, hfield⟩ := Prod.mk.inj heq
    exact ⟨hname, hfield⟩
  · rintro ⟨hname, hfield⟩
    exact ⟨e.1, hname, by rw [hfield]⟩

/-- Every field of a finished task is read from its metadata or that of its run. -/
theorem mem_fields {s : KanbanTaskSnapshot} {e : Sigma fun _ : String => String}
    (he : e ∈ s.fields.entries) : e.1 ∈ allowedResultFields ∧
      (stringField s.metadata e.1 = some e.2 ∨
        ∃ run, s.latestRun = some run ∧ stringField run.metadata e.1 = some e.2) := by
  unfold KanbanTaskSnapshot.fields at he
  cases hrun : s.latestRun with
  | none =>
      rw [hrun] at he
      exact (mem_resultFields.1 he).imp_right Or.inl
  | some run =>
      rw [hrun] at he
      rcases Mapping.mem_update.1 he with he | ⟨he, -⟩
      · exact (mem_resultFields.1 he).imp_right Or.inl
      · exact (mem_resultFields.1 he).imp_right fun h => Or.inr ⟨run, rfl, h⟩

/-- The fields of a finished task are allowlisted and acceptable. -/
theorem fields_ok {s : KanbanTaskSnapshot} (hs : SnapshotOk s)
    {e : Sigma fun _ : String => String} (he : e ∈ s.fields.entries) :
    e.1 ∈ allowedResultFields ∧ FieldOk e.1 e.2 := by
  obtain ⟨hname, hfield | ⟨run, hrun, hfield⟩⟩ := mem_fields he
  · exact ⟨hname, hs.metadata _ hname _ hfield⟩
  · exact ⟨hname, hs.runMetadata run hrun _ hname _ hfield⟩

theorem extraOk_fields {s : KanbanTaskSnapshot} (hs : SnapshotOk s) :
    ExtraOk s.fields.strings := by
  intro e he
  obtain ⟨e', he', rfl⟩ := List.mem_map.1 he
  obtain ⟨hname, hok⟩ := fields_ok hs he'
  exact ⟨List.mem_cons_of_mem _ hname, e'.2, rfl, hok⟩

/-! ## The loop -/

namespace KanbanDispatcherAdapter

/-- The adapter gets this snapshot from a callback. -/
def Supplies (a : KanbanDispatcherAdapter) (c : ExecutionContext) (s : KanbanTaskSnapshot) : Prop :=
  a.start c = .ok (.inr s) ∨ ∃ n taskId, a.readTask n taskId = .ok s

/-- What the end of the loop says of its last snapshot. -/
def EndsAt (last : KanbanTaskSnapshot) : LoopEnd → Prop
  | .terminal => last.status ∈ terminalDoneStatuses ++ terminalBlockedStatuses
  | .failed outcome => failedOutcome last = some outcome
  | .timeout | .raised _ => True

variable {a : KanbanDispatcherAdapter} {c : ExecutionContext}

/-- **The loop adds one event for each change of status.** -/
theorem pollTask_events {taskId : String} {deadline : ℚ} {fuel reads checks : Nat}
    {snapshot last : KanbanTaskSnapshot} {lastStatus : String} {ending : LoopEnd}
    {events events' : List (String × RawPayload)} (hsupplied : a.Supplies c snapshot)
    (h : a.pollTask c taskId deadline fuel reads checks snapshot lastStatus events =
      some (ending, last, events')) :
    a.Supplies c last ∧ EndsAt last ending ∧ ∃ changed : List KanbanTaskSnapshot,
      (∀ s ∈ changed, a.Supplies c s) ∧
      events' = events ++ changed.map (kanbanEvent "kanban.status_changed" c · ∅) := by
  induction fuel generalizing reads checks snapshot lastStatus events with
  | zero => cases h
  | succ fuel ih =>
      unfold pollTask at h
      split at h
      · rename_i hterminal
        cases h
        exact ⟨hsupplied, hterminal, [], by simp, by simp⟩
      split at h
      · rename_i outcome hfailed
        cases h
        exact ⟨hsupplied, hfailed, [], by simp, by simp⟩
      split at h
      · cases h
        exact ⟨hsupplied, trivial, [], by simp, by simp⟩
      split at h
      · cases h
        exact ⟨hsupplied, trivial, [], by simp, by simp⟩
      rename_i next hread
      have hnext : a.Supplies c next := Or.inr ⟨_, _, hread⟩
      split at h
      · obtain ⟨hlast, hends, changed, hchanged, heq⟩ := ih hnext h
        refine ⟨hlast, hends, next :: changed, ?_, by simp [heq]⟩
        intro s hs
        rcases List.mem_cons.1 hs with rfl | hs
        · exact hnext
        · exact hchanged s hs
      · exact ih hnext h

/-- A task whose latest run has failed ends the loop at once. -/
theorem call_of_failed {fuel : Nat} {snapshot : KanbanTaskSnapshot} {outcome : String}
    (hstart : a.start c = .ok (.inr snapshot))
    (hstatus : snapshot.status ∉ terminalDoneStatuses ++ terminalBlockedStatuses)
    (hfailed : failedOutcome snapshot = some outcome) :
    a.call (fuel + 1) c = some (conclude c (.failed outcome) snapshot
      [kanbanEvent "kanban.dispatched" c snapshot ∅]) := by
  have hfirst : a.first c = .ok (snapshot, 0) := by
    unfold first
    rw [hstart]
    rfl
  unfold call
  simp only [hfirst, poll, pollTask, if_neg hstatus, hfailed, Option.map_some]

/-- A task that is done or blocked ends the loop at once. -/
theorem poll_of_terminal {fuel reads : Nat} {snapshot : KanbanTaskSnapshot}
    (hstatus : snapshot.status ∈ terminalDoneStatuses ++ terminalBlockedStatuses) :
    a.poll (fuel + 1) c snapshot reads =
      some (.terminal, snapshot, [kanbanEvent "kanban.dispatched" c snapshot ∅]) := by
  simp only [poll, pollTask, if_pos hstatus]

theorem supplies_first {initial : KanbanTaskSnapshot} {reads : Nat}
    (h : a.first c = .ok (initial, reads)) : a.Supplies c initial := by
  unfold first at h
  obtain ⟨answer, hstart, h₁⟩ := bind_eq_ok.1 h
  cases answer with
  | inr snapshot =>
      cases h₁
      exact Or.inl hstart
  | inl taskId =>
      obtain ⟨snapshot, hread, h₂⟩ := bind_eq_ok.1 h₁
      cases h₂
      exact Or.inr ⟨_, _, hread⟩

/-! ## All events -/

/-- The events in a result, or in what was raised. -/
def emitted : Except Exc ExecutionResult → List (String × RawPayload)
  | .ok result => result.events
  | .error exc =>
      match exc.event with
      | some ev => ev.events
      | none => []

/-- The event is accepted by `validate_event_payload`. -/
def ValidEvent (event : String × RawPayload) : Prop :=
  (validateEventPayload event.1 event.2).toOption.isSome

instance (event : String × RawPayload) : Decidable (ValidEvent event) :=
  inferInstanceAs (Decidable (_ = _))

theorem validEvent_kanbanEvent {kind : String} {s : KanbanTaskSnapshot} {extra : Mapping PyVal} :
    ValidEvent (kanbanEvent kind c s extra) ↔ Accepted kind (eventPayload c s extra) := Iff.rfl

theorem required_base : ∀ key ∈ ["kanban_task_id", "status"], key ∈ baseFields := by decide

/-- The outcome of a task that failed is one of the reported ones, so it is no empty text. -/
theorem fieldOk_of_failed {last : KanbanTaskSnapshot} {outcome : String} (hs : SnapshotOk last)
    (hfailed : failedOutcome last = some outcome) : FieldOk "kanban_outcome" outcome := by
  refine hs.outcome outcome ?_
  simp only [failedOutcome, Option.filter_eq_some_iff, decide_eq_true_eq] at hfailed
  obtain ⟨hout, hmem⟩ := hfailed
  rw [truthy, hout]
  refine Option.filter_some_pos ?_
  simp only [ne_eq, decide_eq_true_eq]
  intro hempty
  rw [hempty] at hmem
  exact absurd hmem (by decide)

theorem failed_accepted_iff_clean {last : KanbanTaskSnapshot} {outcome : String}
    (hc : ContextOk c) (hs : SnapshotOk last) (hok : FieldOk "kanban_outcome" outcome) :
    Accepted "kanban.failed" (eventPayload c last (.mk [⟨"kanban_outcome", .str outcome⟩])) ↔
      hasSecretWord last.taskId = false := by
  have hextra : ExtraOk (.mk [⟨"kanban_outcome", .str outcome⟩]) := by
    intro e he
    rw [List.mem_singleton.1 he]
    exact ⟨List.mem_cons_self, outcome, rfl, hok⟩
  rw [accepted_with_outcome rfl (by decide) hc hs hextra (by decide)]
  · intro key hkey
    have hallowed : "kanban_outcome" ∈ ["kanban_task_id", "status", "kanban_outcome"] ++
        ["assignee", "run_id", "linear_issue_id", "agent"] := by decide
    rw [List.mem_singleton.1 hkey]
    exact hallowed
  · intro key hkey
    by_cases hout : key = "kanban_outcome"
    · rw [hout]
      exact Or.inr List.mem_cons_self
    · left
      refine required_base key ?_
      simpa [hout] using hkey

theorem blocked_accepted_iff_clean {last : KanbanTaskSnapshot} (hc : ContextOk c)
    (hs : SnapshotOk last) : Accepted "kanban.blocked" (eventPayload c last ∅) ↔
      hasSecretWord last.taskId = false :=
  accepted_with_outcome rfl (by decide) hc hs extraOk_empty (by decide)
    (fun _ hkey => absurd hkey List.not_mem_nil) fun key hkey => Or.inl (required_base key hkey)

theorem completed_accepted_iff_clean {last : KanbanTaskSnapshot} (hc : ContextOk c)
    (hs : SnapshotOk last) :
    Accepted "kanban.completed" (eventPayload c last last.fields.strings) ↔
      hasSecretWord last.taskId = false := by
  rw [accepted_with_outcome rfl (by decide) hc hs (extraOk_fields hs) (by decide)]
  · intro key hkey
    obtain ⟨e, he, rfl⟩ := Mapping.mem_keys.1 hkey
    obtain ⟨e', he', rfl⟩ := List.mem_map.1 he
    have hallowed : ∀ name ∈ allowedResultFields, name ∈ ["kanban_task_id", "status"] ++
        ["commit_sha", "pull_request_url", "railway_deployment_id", "tests_status",
          "review_status", "assignee", "kanban_outcome", "run_id", "linear_issue_id",
          "agent"] := by decide
    exact hallowed _ (fields_ok hs he').1
  · exact fun key hkey => Or.inl (required_base key hkey)

/-- The last event of an adapter that ends by itself, and when it is accepted. -/
theorem conclude_event {ending : LoopEnd} {last : KanbanTaskSnapshot}
    (events : List (String × RawPayload)) (hc : ContextOk c) (hs : SnapshotOk last)
    (hends : EndsAt last ending) (hended : ∀ exc, ending ≠ .raised exc) :
    ∃ final, emitted (conclude c ending last events) = events ++ [final] ∧
      (ValidEvent final ↔ hasSecretWord last.taskId = false ∧
        (ending = .timeout → truthy last.outcome = none)) := by
  cases ending with
  | raised exc => exact absurd rfl (hended exc)
  | timeout =>
      refine ⟨_, rfl, ?_⟩
      rw [validEvent_kanbanEvent, accepted_without_outcome rfl (by decide) hc hs (by decide)
        (by decide) (by decide)]
      simp
  | failed outcome =>
      refine ⟨_, rfl, ?_⟩
      rw [validEvent_kanbanEvent, failed_accepted_iff_clean hc hs (fieldOk_of_failed hs hends)]
      simp
  | terminal =>
      by_cases hblocked : last.status ∈ terminalBlockedStatuses
      · refine ⟨kanbanEvent "kanban.blocked" c last ∅, ?_, ?_⟩
        · simp [conclude, hblocked, emitted, ExecutionResult.ofFields]
        · rw [validEvent_kanbanEvent, blocked_accepted_iff_clean hc hs]
          simp
      · refine ⟨kanbanEvent "kanban.completed" c last last.fields.strings, ?_, ?_⟩
        · simp [conclude, hblocked, emitted, ExecutionResult.ofFields]
        · rw [validEvent_kanbanEvent, completed_accepted_iff_clean hc hs]
          simp

/-- **When the events of the adapter are accepted**, given acceptable texts: no reported task id
contains a secret word, the first snapshot has no run outcome, and neither has the last one when
the time is up. -/
theorem kanban_events_accepted_iff {fuel reads : Nat} {initial last : KanbanTaskSnapshot}
    {ending : LoopEnd} {events : List (String × RawPayload)} (hc : ContextOk c)
    (hs : ∀ s, a.Supplies c s → SnapshotOk s) (hfirst : a.first c = .ok (initial, reads))
    (hpoll : a.poll fuel c initial reads = some (ending, last, events))
    (hended : ∀ exc, ending ≠ .raised exc) :
    ∃ o changed final, a.call fuel c = some o ∧ (∀ s ∈ changed, a.Supplies c s) ∧
      emitted o = kanbanEvent "kanban.dispatched" c initial ∅ ::
        (changed.map (kanbanEvent "kanban.status_changed" c · ∅) ++ [final]) ∧
      ((∀ event ∈ emitted o, ValidEvent event) ↔
        (∀ s ∈ initial :: (changed ++ [last]), hasSecretWord s.taskId = false) ∧
          truthy initial.outcome = none ∧ (ending = .timeout → truthy last.outcome = none)) := by
  have hinitial := supplies_first hfirst
  obtain ⟨hlast, hends, changed, hchanged, rfl⟩ := pollTask_events hinitial hpoll
  obtain ⟨final, hemitted, hfinal⟩ :=
    conclude_event ([kanbanEvent "kanban.dispatched" c initial ∅] ++
      changed.map (kanbanEvent "kanban.status_changed" c · ∅)) hc (hs last hlast) hends hended
  have hcall : a.call fuel c = some (conclude c ending last
      ([kanbanEvent "kanban.dispatched" c initial ∅] ++
        changed.map (kanbanEvent "kanban.status_changed" c · ∅))) := by
    unfold call
    rw [hfirst]
    simp only [hpoll, Option.map_some]
  refine ⟨_, changed, final, hcall, hchanged, hemitted, ?_⟩
  have hdispatched : ValidEvent (kanbanEvent "kanban.dispatched" c initial ∅) ↔
      hasSecretWord initial.taskId = false ∧ truthy initial.outcome = none :=
    validEvent_kanbanEvent.trans (accepted_without_outcome rfl (by decide) hc
      (hs initial hinitial) (by decide) (by decide) (by decide))
  have hstatus : ∀ s ∈ changed, (ValidEvent (kanbanEvent "kanban.status_changed" c s ∅) ↔
      hasSecretWord s.taskId = false) := fun s hmem =>
    validEvent_kanbanEvent.trans (accepted_with_outcome rfl (by decide) hc
      (hs s (hchanged s hmem)) extraOk_empty (by decide)
      (fun key hkey => absurd hkey List.not_mem_nil)
      fun key hkey => Or.inl (required_base key hkey))
  rw [hemitted]
  simp only [List.cons_append, List.nil_append, List.forall_mem_cons, List.forall_mem_append,
    List.forall_mem_map, hdispatched, hfinal, List.not_mem_nil, false_imp_iff, implies_true,
    and_true]
  have hmiddle : (∀ s ∈ changed, ValidEvent (kanbanEvent "kanban.status_changed" c s ∅)) ↔
      ∀ s ∈ changed, hasSecretWord s.taskId = false :=
    forall₂_congr hstatus
  rw [hmiddle]
  constructor
  · intro ⟨⟨hfirst, hnone⟩, hchanged, hlast, htimeout⟩
    exact ⟨⟨hfirst, hchanged, hlast⟩, hnone, htimeout⟩
  · intro ⟨⟨hfirst, hchanged, hlast⟩, hnone, htimeout⟩
    exact ⟨⟨hfirst, hnone⟩, hchanged, hlast, htimeout⟩

/-! ## A task that has failed before -/

/-- A context for the QA agent. -/
def sampleContext : ExecutionContext :=
  ⟨"run_00000000000000000000000000", "LOL-1", "qualidade", "low", "auto", "local"⟩

theorem sampleContext_ok : ContextOk sampleContext := ⟨by decide, by decide, by decide⟩

theorem hour_pos : (0 : ℚ) < 3600 := rfl

/-- An adapter whose task is `snapshot` at all times. -/
def constantAdapter (snapshot : KanbanTaskSnapshot) : KanbanDispatcherAdapter where
  start := fun _ => .ok (.inr snapshot)
  readTask := fun _ _ => .ok snapshot
  monotonic := fun _ => 0
  timeoutSeconds := 3600
  timeout_pos := hour_pos

theorem supplies_constantAdapter {snapshot s : KanbanTaskSnapshot}
    (h : (constantAdapter snapshot).Supplies c s) : s = snapshot := by
  rcases h with h | ⟨n, taskId, h⟩
  · exact (Sum.inr.inj (Except.ok.inj h)).symm
  · exact (Except.ok.inj h).symm

/-- A snapshot without metadata is acceptable when its texts are. -/
theorem snapshotOk_plain {taskId status : String} {outcome : Option String}
    (htask : isKanbanTaskId taskId = true) (hstatus : FieldOk "status" status)
    (hout : ∀ x, truthy outcome = some x → FieldOk "kanban_outcome" x) :
    SnapshotOk ⟨taskId, status, none, ∅, some ⟨outcome, ∅⟩⟩ where
  taskId := htask
  status := hstatus
  assignee := nofun
  outcome := hout
  metadata := fun _ _ _ h => by cases h
  runMetadata := fun _ hrun _ _ _ h => by cases hrun; cases h

/-- The outcome of an earlier run spoils the first event. -/
theorem kanban_events_rejected :
    ¬ ∀ (a : KanbanDispatcherAdapter) (c : ExecutionContext) (fuel : Nat)
      (o : Except Exc ExecutionResult), ContextOk c →
      (∀ s, a.Supplies c s → SnapshotOk s ∧ FieldOk "kanban_task_id" s.taskId) →
      (∀ exc, a.start c ≠ .error exc) → (∀ n taskId exc, a.readTask n taskId ≠ .error exc) →
      a.call fuel c = some o → ∀ event ∈ emitted o, ValidEvent event := by
  intro h
  let failed : KanbanTaskSnapshot := ⟨"t_backend", "running", none, ∅, some ⟨some "failed", ∅⟩⟩
  have hok : SnapshotOk failed := by
    refine snapshotOk_plain (by decide) (by decide) fun x hx => ?_
    obtain rfl := Option.some.inj hx
    decide
  have hvalid := h (constantAdapter failed) sampleContext 1 _ sampleContext_ok
    (fun s hs => by rw [supplies_constantAdapter hs]; exact ⟨hok, by decide⟩) nofun nofun
    (call_of_failed rfl (by decide) rfl) _ List.mem_cons_self
  exact absurd hvalid (by decide)

/-- A task that is done at once. -/
theorem kanban_events_accepted_iff_done :
    let snapshot : KanbanTaskSnapshot := ⟨"t_backend", "done", none, ∅, some ⟨none, ∅⟩⟩
    ∃ o changed final, (constantAdapter snapshot).call 1 sampleContext = some o ∧
      (∀ s ∈ changed, (constantAdapter snapshot).Supplies sampleContext s) ∧
      emitted o = kanbanEvent "kanban.dispatched" sampleContext snapshot ∅ ::
        (changed.map (kanbanEvent "kanban.status_changed" sampleContext · ∅) ++ [final]) ∧
      ((∀ event ∈ emitted o, ValidEvent event) ↔
        (∀ s ∈ snapshot :: (changed ++ [snapshot]), hasSecretWord s.taskId = false) ∧
          truthy snapshot.outcome = none ∧
          (LoopEnd.terminal = .timeout → truthy snapshot.outcome = none)) := by
  intro snapshot
  have hok : SnapshotOk snapshot := snapshotOk_plain (by decide) (by decide) nofun
  exact kanban_events_accepted_iff sampleContext_ok
    (fun s hs => by rw [supplies_constantAdapter hs]; exact hok) rfl
    (poll_of_terminal (by decide)) nofun

end KanbanDispatcherAdapter

end HermesRuntime
