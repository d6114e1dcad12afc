import HermesRuntime.PersistedEvents
import HermesRuntime.PollerTick
import Mathlib.Data.String.Basic

/-!
# The card a run is judged on

`start` returns the id of a card of the board when one mentions the issue, and creates a card
only where none does.

* `lookup_matchExistingCards` — the card an identifier is matched with.
* `start_returns` — where the id `start` returns comes from.
* `start_card` — when it is the card of the issue.
-/

namespace HermesRuntime

open Effects Prog

theorem truthy_some {s : String} (h : s ≠ "") : truthy (some s) = some s := by
  simp [truthy, h]

/-! ## Matching -/

/-- The task counts for the identifier: it is not archived, and mentions it. -/
def BoardTask.counts (task : BoardTask) (identifier : String) : Bool :=
  task.status ≠ some "archived" && task.mentions identifier

/-- The first of the tasks, in the order of their ids, that counts for the identifier. -/
def firstCard (tasks : List BoardTask) (identifier : String) : Option BoardTask :=
  (tasks.insertionSort fun t t' => t.id ≤ t'.id).find? (·.counts identifier)

/-- One task is matched with the identifiers it mentions that have no card yet. -/
theorem lookup_matchCard (task : BoardTask) (wanted : List String) (found : Mapping String)
    (identifier : String) :
    (matchCard task wanted found).lookup identifier = (found.lookup identifier).or
      (if identifier ∈ wanted ∧ task.mentions identifier = true then some task.id else none) := by
  unfold matchCard
  induction wanted generalizing found with
  | nil => simp
  | cons name wanted ih =>
      rw [List.foldl_cons, ih]
      by_cases hfound : name ∈ found.keys
      · rw [if_pos hfound]
        by_cases hname : identifier = name
        · obtain ⟨id, hid⟩ := Option.isSome_iff_exists.1 (AList.lookup_isSome.2 hfound)
          rw [hname, hid, Option.some_or, Option.some_or]
        · simp [hname]
      · rw [if_neg hfound]
        by_cases hname : identifier = name
        · subst hname
          have hnone : found.lookup identifier = none := AList.lookup_eq_none.2 hfound
          by_cases hm : task.mentions identifier = true
          · rw [if_pos hm, Mapping.lookup_set, if_pos rfl, hnone, Option.some_or, Option.none_or,
              if_pos ⟨List.mem_cons_self, hm⟩]
          · simp [hm]
        · have hsame : (if task.mentions name = true then found.set name task.id else found).lookup
              identifier = found.lookup identifier := by
            split
            · rw [Mapping.lookup_set, if_neg hname]
            · rfl
          rw [hsame]
          simp [hname]

/-- **The card an identifier is matched with**: the first task that counts for it. -/
theorem lookup_matchExistingCards (tasks : List BoardTask) {identifiers : List String}
    {identifier : String} (h : identifier ∈ identifiers) :
    (matchExistingCards tasks identifiers).lookup identifier =
      (firstCard tasks identifier).map (·.id) := by
  have hwanted : identifier ∈ identifiers.eraseDups := List.mem_eraseDups.2 h
  unfold matchExistingCards firstCard
  generalize tasks.insertionSort (fun t t' => t.id ≤ t'.id) = sorted
  suffices hfold : ∀ found : Mapping String,
      (sorted.foldl (fun found task => if task.status = some "archived" then found
        else matchCard task identifiers.eraseDups found) found).lookup identifier =
        (found.lookup identifier).or ((sorted.find? (·.counts identifier)).map (·.id)) from hfold ∅
  induction sorted with
  | nil => simp
  | cons task sorted ih =>
      intro found
      rw [List.foldl_cons, ih]
      by_cases harchived : task.status = some "archived"
      · have hno : task.counts identifier = false := by simp [BoardTask.counts, harchived]
        rw [if_pos harchived, List.find?_cons_of_neg (by simp [hno])]
      · rw [if_neg harchived, lookup_matchCard]
        by_cases hm : task.mentions identifier = true
        · have hyes : task.counts identifier = true := by simp [BoardTask.counts, harchived, hm]
          have hfind : (task :: sorted).find? (·.counts identifier) = some task :=
            List.find?_cons_of_pos hyes
          rw [if_pos ⟨hwanted, hm⟩, hfind, Option.map_some, Option.or_assoc, Option.some_or]
        · have hno : task.counts identifier = false := by simp [BoardTask.counts, hm]
          rw [if_neg (fun hc => hm hc.2), List.find?_cons_of_neg (by simp [hno]), Option.or_none]

/-- It is a task of the board with the least id among those that count. -/
theorem firstCard_eq_some {tasks : List BoardTask} {identifier : String} {task : BoardTask}
    (h : firstCard tasks identifier = some task) : task ∈ tasks ∧ task.counts identifier = true ∧
      ∀ t ∈ tasks, t.counts identifier = true → task.id ≤ t.id := by
  obtain ⟨hcounts, before, after, hsorted, hbefore⟩ := List.find?_eq_some_iff_append.1 h
  have hmem : ∀ t, t ∈ tasks ↔ t ∈ before ++ task :: after := by
    intro t
    rw [← hsorted, List.mem_insertionSort]
  refine ⟨(hmem task).2 (by simp), hcounts, fun t ht hc => ?_⟩
  have hpair : (before ++ task :: after).Pairwise fun t t' : BoardTask => t.id ≤ t'.id := by
    rw [← hsorted]
    have : Std.Total fun t t' : BoardTask => t.id ≤ t'.id := ⟨fun t t' => le_total t.id t'.id⟩
    have : IsTrans BoardTask fun t t' => t.id ≤ t'.id := ⟨fun _ _ _ => le_trans⟩
    exact List.pairwise_insertionSort _ _
  rcases List.mem_append.1 ((hmem t).1 ht) with hb | ha
  · have hno := hbefore t hb
    rw [hc] at hno
    cases hno
  · rcases List.mem_cons.1 ha with rfl | ha
    · exact le_refl _
    · exact List.rel_of_pairwise_cons (List.pairwise_append.1 hpair).2.1 ha

theorem firstCard_eq_none {tasks : List BoardTask} {identifier : String} :
    firstCard tasks identifier = none ↔ ∀ t ∈ tasks, t.counts identifier = false := by
  rw [firstCard, List.find?_eq_none]
  simp

/-! ## The id `start` returns -/

/-- What is assumed of `create_task`: it returns the card with the draft's key, or inserts a new
card for the draft. -/
def Creates (board : List BoardTask) (draft : TaskDraft) (id : String)
    (board' : List BoardTask) : Prop :=
  (board' = board ∧ ∃ t ∈ board, t.idempotencyKey = some draft.idempotencyKey ∧ t.id = id) ∨
    (∀ t ∈ board, t.id ≠ id) ∧ ∃ t, board' = board ++ [t] ∧ t.id = id ∧
      t.status ≠ some "archived" ∧ t.title = some draft.title ∧ t.body = some draft.body ∧
      t.idempotencyKey = some draft.idempotencyKey

/-- The card was dispatched for the issue: it has the key `start` creates its cards with. -/
def BoardTask.DispatchedFor (task : BoardTask) (issueId : String) : Prop :=
  task.idempotencyKey = some (runtimeKey issueId)

instance (task : BoardTask) (issueId : String) : Decidable (task.DispatchedFor issueId) :=
  inferInstanceAs (Decidable (_ = _))

theorem Creates.dispatchedFor {board board' : List BoardTask} {c : ExecutionContext} {id : String}
    (h : Creates board (runtimeDraft c) id board') :
    ∃ t ∈ board', t.id = id ∧ t.DispatchedFor c.linearIssueId := by
  rcases h with ⟨rfl, t, ht, hkey, hid⟩ | ⟨-, t, rfl, hid, -, -, -, hkey⟩
  · exact ⟨t, ht, hid, hkey⟩
  · exact ⟨t, by simp, hid, hkey⟩

/-- The steps of a `start` that returns an id. -/
theorem start_returns {c : ExecutionContext} {tr : List BoardEvent} {id : String}
    (h : Returns (start c).run tr (.ok id)) : requiresHuman c = false ∧ ∃ tasks,
      (tr = [⟨.listTasks, .ok tasks⟩] ∧ id ≠ "" ∧
        ∃ t, firstCard tasks c.linearIssueId = some t ∧ t.id = id) ∨
      tr = [⟨.listTasks, .ok tasks⟩, ⟨.createTask (runtimeDraft c), .ok id⟩] ∧
        ∀ t, firstCard tasks c.linearIssueId = some t → t.id = "" := by
  unfold start at h
  cases hpolicy : requiresHuman c with
  | true =>
      rw [hpolicy] at h
      obtain ⟨_, _, _, -, hthrow, -⟩ := returns_run_bind_ok.1 h
      cases (returns_throw.1 hthrow).2
  | false =>
  rw [hpolicy] at h
  refine ⟨rfl, ?_⟩
  obtain ⟨_, tr₁, tasks, rfl, hlist, h₂⟩ := returns_run_bind_ok.1 h
  obtain rfl := returns_call_ret.1 hlist
  have hlookup := lookup_matchExistingCards tasks (List.mem_singleton_self c.linearIssueId)
  rw [hlookup] at h₂
  refine ⟨tasks, ?_⟩
  cases hcard : firstCard tasks c.linearIssueId with
  | none =>
      rw [hcard] at h₂
      obtain rfl := returns_call_ret.1 h₂
      exact Or.inr ⟨rfl, nofun⟩
  | some t =>
      rw [hcard] at h₂
      by_cases hid : t.id = ""
      · rw [Option.map_some, truthy, hid] at h₂
        obtain rfl := returns_call_ret.1 h₂
        refine Or.inr ⟨rfl, fun t' ht' => ?_⟩
        cases ht'
        exact hid
      · rw [Option.map_some, truthy_some hid] at h₂
        obtain ⟨rfl, heq⟩ := returns_pure.1 h₂
        cases heq
        exact Or.inl ⟨rfl, hid, t, rfl, rfl⟩

/-- A card that counts is returned. -/
theorem start_of_card {c : ExecutionContext} {tasks : List BoardTask} {task : BoardTask}
    (hpolicy : requiresHuman c = false) (hcard : firstCard tasks c.linearIssueId = some task)
    (hid : task.id ≠ "") : Returns (start c).run [⟨.listTasks, .ok tasks⟩] (.ok task.id) := by
  unfold start
  rw [hpolicy]
  refine returns_run_bind_ok.2 ⟨[_], [], tasks, rfl, returns_call_ret.2 rfl, ?_⟩
  rw [lookup_matchExistingCards tasks (List.mem_singleton_self c.linearIssueId), hcard]
  rw [Option.map_some, truthy_some hid]
  exact returns_pure.2 ⟨rfl, rfl⟩

/-- Without one a card is created. -/
theorem start_of_none {c : ExecutionContext} {tasks : List BoardTask} (id : String)
    (hpolicy : requiresHuman c = false) (hnone : firstCard tasks c.linearIssueId = none) :
    Returns (start c).run [⟨.listTasks, .ok tasks⟩, ⟨.createTask (runtimeDraft c), .ok id⟩]
      (.ok id) := by
  unfold start
  rw [hpolicy]
  refine returns_run_bind_ok.2 ⟨[_], [_], tasks, rfl, returns_call_ret.2 rfl, ?_⟩
  rw [lookup_matchExistingCards tasks (List.mem_singleton_self c.linearIssueId), hnone]
  exact returns_call_ret.2 rfl

/-- **Which card `start` returns.** Where a task of the board mentions the issue, it is the one
with the least id (unless that is empty); else it is the card `create_task` returned, which was
dispatched for the issue. So the card is the issue's own when no card of other work mentions the
issue. -/
theorem start_card {c : ExecutionContext} {tr : List BoardEvent} {id : String}
    {tasks board board' : List BoardTask} (h : Returns (start c).run tr (.ok id))
    (hlist : (⟨.listTasks, .ok tasks⟩ : BoardEvent) ∈ tr)
    (hcreate : ∀ draft id', (⟨.createTask draft, .ok id'⟩ : BoardEvent) ∈ tr →
      Creates board draft id' board') :
    requiresHuman c = false ∧
      ((∃ t ∈ tasks, t.id = id ∧ t.counts c.linearIssueId = true ∧
        ∀ t' ∈ tasks, t'.counts c.linearIssueId = true → t.id ≤ t'.id) ∨
      (∀ t ∈ tasks, t.counts c.linearIssueId = true →
        ∃ t' ∈ tasks, t'.counts c.linearIssueId = true ∧ t'.id = "") ∧
        ∃ t ∈ board', t.id = id ∧ t.DispatchedFor c.linearIssueId) ∧
      ((∀ t ∈ tasks, t.counts c.linearIssueId = true → t.DispatchedFor c.linearIssueId) →
        ∃ t ∈ tasks ++ board', t.id = id ∧ t.DispatchedFor c.linearIssueId) ∧
      ∀ a : KanbanDispatcherAdapter, a.start c = .ok (.inl id) →
        a.first c = (a.readTask 0 id).map fun snapshot => (snapshot, 1) := by
  obtain ⟨hpolicy, tasks', hsteps⟩ := start_returns h
  have hfirst : ∀ a : KanbanDispatcherAdapter, a.start c = .ok (.inl id) →
      a.first c = (a.readTask 0 id).map fun snapshot => (snapshot, 1) := by
    intro a ha
    unfold KanbanDispatcherAdapter.first
    rw [ha]
    show (a.readTask 0 id >>= fun snapshot => _) = _
    cases a.readTask 0 id <;> rfl
  rcases hsteps with ⟨rfl, -, t, ht, rfl⟩ | ⟨rfl, hempty⟩
  · obtain rfl : tasks = tasks' := by
      cases List.mem_singleton.1 hlist
      rfl
    obtain ⟨hmem, hcounts, hleast⟩ := firstCard_eq_some ht
    exact ⟨hpolicy, Or.inl ⟨t, hmem, rfl, hcounts, hleast⟩,
      fun hown => ⟨t, List.mem_append_left _ hmem, rfl, hown t hmem hcounts⟩, hfirst⟩
  · obtain ⟨t, ht, hid, hown⟩ :=
      (hcreate _ id (List.mem_cons_of_mem _ (List.mem_singleton_self _))).dispatchedFor
    have hnone : ∀ t ∈ tasks, t.counts c.linearIssueId = true →
        ∃ t' ∈ tasks, t'.counts c.linearIssueId = true ∧ t'.id = "" := by
      intro t ht hcounts
      obtain rfl : tasks = tasks' := by
        rcases List.mem_cons.1 hlist with heq | hmem
        · cases heq
          rfl
        · cases List.mem_singleton.1 hmem
      cases hcard : firstCard tasks c.linearIssueId with
      | none =>
          have hno := firstCard_eq_none.1 hcard t ht
          rw [hcounts] at hno
          cases hno
      | some t' =>
          obtain ⟨hmem, hcounts', -⟩ := firstCard_eq_some hcard
          exact ⟨t', hmem, hcounts', hempty t' hcard⟩
    exact ⟨hpolicy, Or.inr ⟨hnone, t, ht, hid, hown⟩,
      fun _ => ⟨t, List.mem_append_right _ ht, hid, hown⟩, hfirst⟩

/-! ## Two boards -/

/-- A card staged by hand that mentions `LOL-1`. -/
def stagedCard : BoardTask :=
  { id := "t_staged", status := some "blocked", title := some "Spec 009",
    body := some "after LOL-1" }

theorem stagedCard_counts : stagedCard.counts "LOL-1" = true := by
  have hname : "LOL-1".toList = ['L', 'O', 'L', '-', '1'] := by decide
  have htitle : "Spec 009".toList = ['S', 'p', 'e', 'c', ' ', '0', '0', '9'] := by decide
  have hbody : "after LOL-1".toList = ['a', 'f', 't', 'e', 'r', ' ', 'L', 'O', 'L', '-', '1'] := by
    decide
  have hopen : stagedCard.status ≠ some "archived" := by decide
  rw [BoardTask.counts, decide_eq_true hopen, Bool.true_and, BoardTask.mentions]
  simp only [stagedCard, Option.getD_some, hname, htitle, hbody]
  decide

/-- The context of a run for `LOL-1`. -/
def cardContext : ExecutionContext := ⟨"run_1", "LOL-1", "dev-backend", "low", "auto", "local"⟩

/-- A run of `LOL-1` is judged on a card of other work. -/
theorem start_card_of_other :
    ¬ ∀ (c : ExecutionContext) (tr : List BoardEvent) (id : String)
      (tasks board board' : List BoardTask), requiresHuman c = false →
      Returns (start c).run tr (.ok id) → (⟨.listTasks, .ok tasks⟩ : BoardEvent) ∈ tr →
      (∀ draft id', (⟨.createTask draft, .ok id'⟩ : BoardEvent) ∈ tr →
        Creates board draft id' board') →
      ∃ t ∈ tasks ++ board', t.id = id ∧ t.DispatchedFor c.linearIssueId := by
  intro h
  have hcard : firstCard [stagedCard] cardContext.linearIssueId = some stagedCard :=
    List.find?_cons_of_pos stagedCard_counts
  have hpolicy : requiresHuman cardContext = false := by decide
  have hid : stagedCard.id ≠ "" := by decide
  obtain ⟨t, ht, -, hown⟩ := h cardContext _ _ [stagedCard] [] [] hpolicy
    (start_of_card hpolicy hcard hid) (List.mem_singleton_self _)
    fun draft id' hmem => by cases List.mem_singleton.1 hmem
  obtain rfl : t = stagedCard := List.mem_singleton.1 ht
  cases hown

/-- A card inserted for a draft. -/
def insertedCard (id : String) (draft : TaskDraft) : BoardTask where
  id := id
  status := some "ready"
  title := some draft.title
  body := some draft.body
  idempotencyKey := some draft.idempotencyKey

/-- An archived card of the issue, and a card of another one. -/
def othersBoard : List BoardTask :=
  [{ id := "t_0", status := some "archived", title := some "[runtime] LOL-1" },
    insertedCard "t_2" (runtimeDraft { cardContext with linearIssueId := "LOL-2" })]

/-- They and the card of the issue. -/
def mixedBoard : List BoardTask := othersBoard ++ [insertedCard "t_1" (runtimeDraft cardContext)]

/-- Of the cards on a mixed board the one of the issue is returned; beside the others it is
created. -/
theorem start_card_found_or_created :
    ((∃ t ∈ mixedBoard, t.id = "t_1" ∧ t.counts "LOL-1" = true ∧
        ∀ t' ∈ mixedBoard, t'.counts "LOL-1" = true → t.id ≤ t'.id) ∧
      ∃ t ∈ mixedBoard ++ mixedBoard, t.id = "t_1" ∧ t.DispatchedFor "LOL-1") ∧
    ∃ t ∈ othersBoard ++ (othersBoard ++ [insertedCard "t_3" (runtimeDraft cardContext)]),
      t.id = "t_3" ∧ t.DispatchedFor "LOL-1" := by
  have hpolicy : requiresHuman cardContext = false := by decide
  have hown : ∀ t ∈ mixedBoard, t.counts "LOL-1" = true → t.DispatchedFor "LOL-1" := by
    decide +kernel
  refine ⟨?_, ?_⟩
  · have hcard : firstCard mixedBoard "LOL-1" =
        some (insertedCard "t_1" (runtimeDraft cardContext)) := by decide +kernel
    have hrun := start_of_card (c := cardContext) hpolicy hcard (by decide)
    have hcreate : ∀ draft id', (⟨.createTask draft, .ok id'⟩ : BoardEvent) ∈
        [⟨.listTasks, .ok mixedBoard⟩] → Creates mixedBoard draft id' mixedBoard := by
      intro draft id' hmem
      cases List.mem_singleton.1 hmem
    obtain ⟨-, hfound | ⟨hnone, -⟩, hdispatched, -⟩ :=
      start_card hrun (List.mem_singleton_self _) hcreate
    · exact ⟨hfound, hdispatched hown⟩
    · exact absurd hnone (by decide +kernel)
  · have hnone : firstCard othersBoard "LOL-1" = none := by decide +kernel
    have hrun := start_of_none (c := cardContext) "t_3" hpolicy hnone
    have hready : some "ready" ≠ some "archived" := by decide
    have hnew : ∀ t ∈ othersBoard, t.id ≠ "t_3" := by decide
    have hcreate : ∀ draft id', (⟨.createTask draft, .ok id'⟩ : BoardEvent) ∈
        [⟨.listTasks, .ok othersBoard⟩, ⟨.createTask (runtimeDraft cardContext), .ok "t_3"⟩] →
          Creates othersBoard draft id'
            (othersBoard ++ [insertedCard "t_3" (runtimeDraft cardContext)]) := by
      intro draft id' hmem
      rcases List.mem_cons.1 hmem with heq | hmem
      · cases heq
      · cases List.mem_singleton.1 hmem
        exact Or.inr ⟨hnew, _, rfl, rfl, hready, rfl, rfl, rfl⟩
    exact (start_card hrun List.mem_cons_self hcreate).2.2.1 fun t ht =>
      hown t (List.mem_append_left _ ht)

end HermesRuntime
