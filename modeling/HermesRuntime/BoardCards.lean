import HermesRuntime.CardTokens
import HermesRuntime.Lib.Interleave

/-!
# One card for each issue

Any number of `start` calls run side by side over one board. Each looks at the board in one
transaction and creates a card in another, and between the two anything may happen: other starts,
other parties' cards, edits, archiving.

* `BoardStep`, `boardSemantics` — what may happen to the board. Of `create_task` it is assumed
  that it returns the card with the key that is not archived, or else inserts one.
* `runtimeDraft_hasToken` — the title `start` writes is found again, whatever the identifier.
* `one_card_per_issue` — an issue never has two cards, and a `start` that has one to find
  creates none.
-/

namespace HermesRuntime

open Effects Prog

/-! ## The board -/

/-- The card is open for the issue: `start` dispatched it, and it is not archived. -/
def BoardTask.openFor (task : BoardTask) (issueId : String) : Bool :=
  task.status ≠ some "archived" && task.DispatchedFor issueId

theorem BoardTask.openFor_iff {task : BoardTask} {issueId : String} :
    task.openFor issueId = true ↔ task.status ≠ some "archived" ∧ task.DispatchedFor issueId := by
  rw [BoardTask.openFor, Bool.and_eq_true, decide_eq_true_iff, decide_eq_true_iff]

/-- The card after card `id` was archived. -/
def BoardTask.archive (id : String) (task : BoardTask) : BoardTask :=
  if task.id = id then { task with status := some "archived" } else task

/-- The card after status and body of card `id` were changed; an archived card is left alone. -/
def BoardTask.edit (id : String) (status body : Option String) (task : BoardTask) : BoardTask :=
  if task.id = id ∧ task.status ≠ some "archived" then { task with status, body } else task

/-- No card that is not archived has the key of the task. -/
def FreshKey (board : List BoardTask) (task : BoardTask) : Prop :=
  ∀ key, task.idempotencyKey = some key →
    ∀ t ∈ board, t.status ≠ some "archived" → t.idempotencyKey ≠ some key

/-- The card is one inserted for the draft. -/
def BoardTask.MadeFrom (task : BoardTask) (draft : TaskDraft) : Prop :=
  task.status ≠ some "archived" ∧ task.title = some draft.title ∧ task.body = some draft.body ∧
    task.idempotencyKey = some draft.idempotencyKey

/-- `create_task` returns `id`: of the card with the key that is not archived, or else of one it
inserts. -/
def GetsOrCreates (board : List BoardTask) (draft : TaskDraft) (id : String)
    (board' : List BoardTask) : Prop :=
  (board' = board ∧ ∃ t ∈ board, t.status ≠ some "archived" ∧
      t.idempotencyKey = some draft.idempotencyKey ∧ t.id = id) ∨
    ∃ t : BoardTask, FreshKey board t ∧ t.MadeFrom draft ∧ t.id = id ∧ board' = board ++ [t]

/-- What others do to the board. Titles and keys stay, and nobody takes a card out of the
archive. -/
inductive BoardStep where
  /-- Somebody archives a card. -/
  | archive (id : String)
  /-- Somebody works on a card. -/
  | edit (id : String) (status body : Option String)
  /-- Somebody else creates a card. -/
  | stage (task : BoardTask)

/-- The board after a step of others. -/
def BoardMoves : BoardStep → List BoardTask → List BoardTask → Prop
  | .archive id, board, board' => board' = board.map (·.archive id)
  | .edit id status body, board, board' =>
      status ≠ some "archived" ∧ board' = board.map (·.edit id status body)
  | .stage task, board, board' => FreshKey board task ∧ board' = board ++ [task]

/-- The answer to a call, and the board after it. The list shows every card that is not archived;
a `create_task` that fails may have inserted its card. -/
def BoardAnswers : BoardEvent → List BoardTask → List BoardTask → Prop
  | ⟨.listTasks, .ok tasks⟩, board, board' => board' = board ∧
      (∀ t ∈ board, t.status ≠ some "archived" → t ∈ tasks) ∧ ∀ t ∈ tasks, t ∈ board
  | ⟨.listTasks, .error _⟩, board, board' => board' = board
  | ⟨.createTask draft, .ok id⟩, board, board' => GetsOrCreates board draft id board'
  | ⟨.createTask draft, .error _⟩, board, board' =>
      board' = board ∨ ∃ id, GetsOrCreates board draft id board'

/-- Starts over one board. -/
def boardSemantics (π : Type) :
    Semantics π BoardCall BoardCall.Resp BoardStep (List BoardTask) where
  answer _ := BoardAnswers
  surround := BoardMoves

/-- The starts and their board. -/
abbrev BoardConfig (π : Type) : Type :=
  Config π BoardCall BoardCall.Resp (Except Exc String) (List BoardTask)

/-- A step of a start, or of others. -/
abbrev BoardLabel (π : Type) : Type := Label π BoardCall BoardCall.Resp BoardStep

/-- No issue has two cards that are not archived. -/
def OneCard (board : List BoardTask) : Prop := ∀ i, board.countP (·.openFor i) ≤ 1

/-! ## What a step does to the cards of an issue -/

theorem openFor_archive {task : BoardTask} {id i : String}
    (h : (task.archive id).openFor i = true) : task.openFor i = true := by
  unfold BoardTask.archive at h
  split at h
  · exact absurd rfl (BoardTask.openFor_iff.1 h).1
  · exact h

theorem openFor_edit {task : BoardTask} {id i : String} {status body : Option String}
    (h : (task.edit id status body).openFor i = true) : task.openFor i = true := by
  unfold BoardTask.edit at h
  split at h
  · rename_i hc
    exact BoardTask.openFor_iff.2 ⟨hc.2, (BoardTask.openFor_iff.1 h).2⟩
  · exact h

/-- A change that opens no card for an issue leaves it with as many at most. -/
theorem OneCard.map {board : List BoardTask} (h : OneCard board) {f : BoardTask → BoardTask}
    (hf : ∀ t i, (f t).openFor i = true → t.openFor i = true) : OneCard (board.map f) := by
  intro i
  rw [List.countP_map]
  exact (List.countP_mono_left fun t _ => hf t i).trans (h i)

/-- So does a new card with a key of its own. -/
theorem OneCard.insert {board : List BoardTask} (h : OneCard board) {task : BoardTask}
    (hfresh : FreshKey board task) : OneCard (board ++ [task]) := by
  intro i
  rw [List.countP_append, List.countP_singleton]
  by_cases hopen : task.openFor i = true
  · have hnone : board.countP (·.openFor i) = 0 := by
      refine List.countP_eq_zero.2 fun t ht hto => ?_
      obtain ⟨hstatus, hkey⟩ := BoardTask.openFor_iff.1 hto
      exact hfresh _ (BoardTask.openFor_iff.1 hopen).2 t ht hstatus hkey
    rw [hnone, if_pos hopen]
  · rw [if_neg hopen]
    exact h i

theorem OneCard.getsOrCreates {board board' : List BoardTask} (h : OneCard board)
    {draft : TaskDraft} {id : String} (hc : GetsOrCreates board draft id board') :
    OneCard board' := by
  rcases hc with ⟨rfl, -⟩ | ⟨t, hfresh, -, -, rfl⟩
  · exact h
  · exact h.insert hfresh

theorem OneCard.answers {board board' : List BoardTask} (h : OneCard board) {e : BoardEvent}
    (ha : BoardAnswers e board board') : OneCard board' := by
  rcases e with ⟨_ | draft, r | r⟩
  · rw [show board' = board from ha]
    exact h
  · rw [ha.1]
    exact h
  · rcases ha with rfl | ⟨id, hc⟩
    · exact h
    · exact h.getsOrCreates hc
  · exact h.getsOrCreates ha

theorem OneCard.moves {board board' : List BoardTask} (h : OneCard board) {x : BoardStep}
    (hm : BoardMoves x board board') : OneCard board' := by
  cases x with
  | archive id =>
      rw [show board' = _ from hm]
      exact h.map fun _ _ => openFor_archive
  | edit id status body =>
      rw [hm.2]
      exact h.map fun _ _ => openFor_edit
  | stage task =>
      rw [hm.2]
      exact h.insert hm.1

/-! ## A card stays to be found -/

/-- The board has the card `id`, open for the issue, under this title. -/
def HasCard (id i : String) (title : Option String) (board : List BoardTask) : Prop :=
  ∃ t ∈ board, t.id = id ∧ t.openFor i = true ∧ t.title = title

section HasCard

variable {id i : String} {title : Option String} {board board' : List BoardTask}

theorem HasCard.append (h : HasCard id i title board) (task : BoardTask) :
    HasCard id i title (board ++ [task]) := by
  obtain ⟨t, ht, hcard⟩ := h
  exact ⟨t, List.mem_append_left _ ht, hcard⟩

theorem HasCard.getsOrCreates (h : HasCard id i title board) {draft : TaskDraft} {id' : String}
    (hc : GetsOrCreates board draft id' board') : HasCard id i title board' := by
  rcases hc with ⟨rfl, -⟩ | ⟨t, -, -, -, rfl⟩
  · exact h
  · exact h.append t

theorem HasCard.answers (h : HasCard id i title board) {e : BoardEvent}
    (ha : BoardAnswers e board board') : HasCard id i title board' := by
  rcases e with ⟨_ | draft, r | r⟩
  · rw [show board' = board from ha]
    exact h
  · rw [ha.1]
    exact h
  · rcases ha with rfl | ⟨id', hc⟩
    · exact h
    · exact h.getsOrCreates hc
  · exact h.getsOrCreates ha

/-- Only archiving the card itself takes it away. -/
theorem HasCard.moves (h : HasCard id i title board) {x : BoardStep}
    (hm : BoardMoves x board board') (hx : x ≠ .archive id) : HasCard id i title board' := by
  cases x with
  | archive id' =>
      obtain ⟨t, ht, hid, hopen, htitle⟩ := h
      have hne : t.id ≠ id' := by
        rintro rfl
        exact hx (by rw [hid])
      rw [show board' = _ from hm]
      refine ⟨t, List.mem_map.2 ⟨t, ht, ?_⟩, hid, hopen, htitle⟩
      rw [BoardTask.archive, if_neg hne]
  | edit id' status body =>
      obtain ⟨t, ht, hid, hopen, htitle⟩ := h
      obtain ⟨hstatus, hkey⟩ := BoardTask.openFor_iff.1 hopen
      rw [hm.2]
      refine ⟨t.edit id' status body, List.mem_map_of_mem ht, ?_⟩
      unfold BoardTask.edit
      split
      · exact ⟨hid, BoardTask.openFor_iff.2 ⟨hm.1, hkey⟩, htitle⟩
      · exact ⟨hid, hopen, htitle⟩
  | stage task =>
      rw [hm.2]
      exact h.append task

/-- With a card to be found, `create_task` for the issue inserts none. -/
theorem HasCard.creates_none (h : HasCard id i title board) {c : ExecutionContext}
    (hi : c.linearIssueId = i) {id' : String}
    (hc : GetsOrCreates board (runtimeDraft c) id' board') : board' = board := by
  rcases hc with ⟨heq, -⟩ | ⟨t, hfresh, ⟨-, -, -, hkey⟩, -, -⟩
  · exact heq
  · obtain ⟨t', ht', -, hopen, -⟩ := h
    obtain ⟨hstatus, hkey'⟩ := BoardTask.openFor_iff.1 hopen
    rw [BoardTask.DispatchedFor, ← hi] at hkey'
    exact absurd hkey' (hfresh _ hkey t' ht' hstatus)

end HasCard

/-! ## What `start` looks for -/

/-- **The title `start` writes has its own identifier as a token**, whatever the identifier. -/
theorem runtimeDraft_hasToken (c : ExecutionContext) :
    HasToken c.linearIssueId.toList (runtimeDraft c).title.toList := by
  have hspace : "[runtime] ".toList.getLast? = some ' ' := by decide
  refine ⟨"[runtime] ".toList, [], ?_, fun ch hch => ?_, nofun⟩
  · rw [List.append_nil]
    exact String.toList_append
  · rw [hspace] at hch
    cases hch
    decide

theorem cardOf_of_title {c : ExecutionContext} {task : BoardTask}
    (hopen : task.status ≠ some "archived") (htitle : task.title = some (runtimeDraft c).title) :
    task.CardOf c.linearIssueId := by
  refine ⟨hopen, Or.inl ?_⟩
  rw [htitle]
  exact runtimeDraft_hasToken c

/-- A `start` that creates has seen no card with an id. -/
theorem start_createTask {c : ExecutionContext} {tr : List BoardEvent}
    {q : Prog BoardCall BoardCall.Resp (Except Exc String)} {draft : TaskDraft}
    {r : BoardCall.Resp (.createTask draft)} (h : Reach (start c).run tr q)
    (hmem : (⟨.createTask draft, r⟩ : BoardEvent) ∈ tr) : draft = runtimeDraft c ∧
      ∃ tasks, tr = [⟨.listTasks, .ok tasks⟩, ⟨.createTask draft, r⟩] ∧
        truthy ((matchExistingCards tasks [c.linearIssueId]).lookup c.linearIssueId) = none := by
  unfold start at h
  cases hpolicy : requiresHuman c with
  | true =>
      rw [hpolicy] at h
      cases h
      cases hmem
  | false =>
      rw [hpolicy] at h
      cases h with
      | refl => cases hmem
      | @call _ _ tasks _ _ h =>
          have hrest := (List.mem_cons.1 hmem).resolve_left fun heq => by cases heq
          clear hmem
          cases tasks with
          | error e =>
              cases h
              exact absurd hrest List.not_mem_nil
          | ok tasks =>
              dsimp only [Prog.bind, ExceptT.bindCont] at h
              cases hfound : truthy ((matchExistingCards tasks [c.linearIssueId]).lookup
                  c.linearIssueId) with
              | some existing =>
                  rw [hfound] at h
                  cases h
                  exact absurd hrest List.not_mem_nil
              | none =>
                  rw [hfound] at h
                  cases h with
                  | refl => exact absurd hrest List.not_mem_nil
                  | call h =>
                      cases h
                      cases List.mem_singleton.1 hrest
                      exact ⟨rfl, tasks, rfl, hfound⟩

/-! ## Runs -/

section Runs

variable {π : Type} [DecidableEq π] {ctx : π → ExecutionContext} {c c' m : BoardConfig π}
  {ls : List (BoardLabel π)}

theorem OneCard.run (h : (boardSemantics π).Run c ls c') (h₀ : OneCard c.world) :
    OneCard c'.world := by
  refine h.invariant (fun m => OneCard m.world) h₀ fun _ hs hm => ?_
  cases hs with
  | call _ ha => exact hm.answers ha
  | env hx => exact hm.moves hx

/-- A card is there to be found as long as nobody archives it. -/
theorem HasCard.run {id i : String} {title : Option String}
    (h : (boardSemantics π).Run c ls c') (h₀ : HasCard id i title c.world)
    (hkept : Label.env (.archive id) ∉ ls) : HasCard id i title c'.world := by
  refine h.invariant (fun m => HasCard id i title m.world) h₀ fun hl hs hm => ?_
  cases hs with
  | call _ ha => exact hm.answers ha
  | env hx =>
      refine hm.moves hx ?_
      rintro rfl
      exact hkept hl

/-- With a card to be found, no step of the `start` changes the board. -/
theorem start_keeps_board {p : π} {tr : List BoardEvent}
    (hreach : Reach (start (ctx p)).run tr (m.progs p))
    {m' : BoardConfig π} {e : BoardEvent} {id : String} {title : Option String}
    (hs : (boardSemantics π).Step m (.call p e) m')
    (hcard : HasCard id (ctx p).linearIssueId title m.world) : m'.world = m.world := by
  generalize hl : (Label.call p e : BoardLabel π) = l at hs
  cases hs with
  | env hx => cases hl
  | @call _ i k r w hp ha =>
      cases hl
      rcases i with _ | draft
      · rcases r with r | r
        · exact ha
        · exact ha.1
      · rw [hp] at hreach
        obtain ⟨rfl, -⟩ := start_createTask (hreach.snoc r)
          (List.mem_append_right _ (List.mem_singleton_self _))
        rcases r with r | r
        · rcases ha with heq | ⟨id', hc⟩
          · exact heq
          · exact hcard.creates_none rfl hc
        · exact hcard.creates_none rfl ha

/-- A `start` that begins with a card to be found under the title `start` writes does not even
ask for another. -/
theorem start_asks_for_none {p : π} {id : String} (h : (boardSemantics π).Run c ls c')
    (hp : c.progs p = (start (ctx p)).run)
    (hcard : HasCard id (ctx p).linearIssueId (some (runtimeDraft (ctx p)).title) c.world)
    (hkept : Label.env (.archive id) ∉ ls)
    (hids : ∀ tasks, (⟨.listTasks, .ok tasks⟩ : BoardEvent) ∈ eventsOf p ls →
      ∀ t ∈ tasks, t.id ≠ "") (draft : TaskDraft) (r : BoardCall.Resp (.createTask draft)) :
    (⟨.createTask draft, r⟩ : BoardEvent) ∉ eventsOf p ls := by
  intro hmem
  have hreach := h.reach p
  rw [hp] at hreach
  obtain ⟨-, tasks, htr, hnone⟩ := start_createTask hreach hmem
  -- the board when the program looked at it
  obtain ⟨ls₁, ls₂, rfl, -, -⟩ := eventsOf_split (htr.trans (List.nil_append _).symm)
  obtain ⟨m₁, m₂, h₁, hs, -⟩ := h.split_at
  obtain ⟨t, ht, -, hopen, htitle⟩ := hcard.run h₁ fun hl => hkept (List.mem_append_left _ hl)
  have hstatus := (BoardTask.openFor_iff.1 hopen).1
  have hshown : t ∈ tasks := by
    generalize hl : (Label.call p ⟨.listTasks, .ok tasks⟩ : BoardLabel π) = l at hs
    cases hs with
    | env hx => cases hl
    | call hp' ha =>
        cases hl
        exact ha.2.1 t ht hstatus
  obtain ⟨t', ht'⟩ := Option.isSome_iff_exists.1
    (firstCard_isSome.2 ⟨t, hshown, cardOf_of_title hstatus htitle⟩)
  have hid : t'.id ≠ "" := by
    refine hids tasks ?_ t' (firstCard_eq_some ht').1
    rw [htr]
    exact List.mem_cons_self
  rw [lookup_matchExistingCards tasks (List.mem_singleton_self _), ht', Option.map_some,
    truthy_some hid] at hnone
  cases hnone

/-- **One card for each issue.** However many starts run, and whatever happens to the board in
between, an issue never has two cards that are not archived. While one stays there, no start for
the issue creates another; one that begins then under the title `start` writes does not even ask.
The search finds that title for every identifier. -/
theorem one_card_per_issue (h : (boardSemantics π).Run c ls c')
    (hstart : ∀ p, c.progs p = (start (ctx p)).run) (h₀ : OneCard c.world) :
    OneCard c'.world ∧
    (∀ pre post m p t, ls = pre ++ post → (boardSemantics π).Run c pre m →
      (boardSemantics π).Run m post c' → t ∈ m.world →
      t.openFor (ctx p).linearIssueId = true → Label.env (.archive t.id) ∉ post →
      (∀ m₁ e m₂, (boardSemantics π).Passes m post c' m₁ (.call p e) m₂ →
        m₂.world = m₁.world) ∧
      (eventsOf p pre = [] → t.title = some (runtimeDraft (ctx p)).title →
        (∀ tasks, (⟨.listTasks, .ok tasks⟩ : BoardEvent) ∈ eventsOf p post →
          ∀ t' ∈ tasks, t'.id ≠ "") →
        ∀ draft r, (⟨.createTask draft, r⟩ : BoardEvent) ∉ eventsOf p post)) ∧
    ∀ (context : ExecutionContext) (tasks : List BoardTask) (identifiers : List String)
      (t : BoardTask), t ∈ tasks → t.status ≠ some "archived" →
      t.title = some (runtimeDraft context).title → context.linearIssueId ∈ identifiers →
      context.linearIssueId ∈ (matchExistingCards tasks identifiers).keys := by
  refine ⟨h₀.run h, ?_, ?_⟩
  · intro pre post m p t _ hpre hpost ht hopen hkept
    have hcard : ∀ title, t.title = title → HasCard t.id (ctx p).linearIssueId title m.world :=
      fun title htitle => ⟨t, ht, rfl, hopen, htitle⟩
    have hreach := hpre.reach p
    rw [hstart p] at hreach
    constructor
    · rintro m₁ e m₂ ⟨before, after, rfl, hbefore, hs, -⟩
      refine start_keeps_board (hreach.trans (hbefore.reach p)) hs
        ((hcard _ rfl).run hbefore fun hl => hkept (List.mem_append_left _ hl))
    · intro hnew htitle hids
      rw [hnew] at hreach
      exact start_asks_for_none hpost (reach_nil hreach) (hcard _ htitle) hkept hids
  · intro context tasks identifiers t ht hstatus htitle hmem
    exact mem_keys_matchExistingCards.2 ⟨hmem, t, ht, cardOf_of_title hstatus htitle⟩

end Runs

/-! ## A race -/

/-- A board that inserts every card under one id. -/
def boardDriver (π : Type) : Driver (boardSemantics π) where
  answer _ i board := match i with
    | .listTasks => (.ok board, board)
    | .createTask draft =>
        match hfind : board.find? fun t => t.status ≠ some "archived" &&
            t.idempotencyKey = some draft.idempotencyKey with
        | some t => (.ok t.id, board)
        | none => (.ok "t_1", board ++ [insertedCard "t_1" draft])
  answer_sound p i board := by
    cases i with
    | listTasks => exact ⟨rfl, fun t ht _ => ht, fun t ht => ht⟩
    | createTask draft =>
        dsimp only
        split
        · rename_i t hfind
          have hfound := List.find?_some hfind
          rw [Bool.and_eq_true, decide_eq_true_iff, decide_eq_true_iff] at hfound
          exact Or.inl ⟨rfl, t, List.mem_of_find?_eq_some hfind, hfound.1, hfound.2, rfl⟩
        · rename_i hfind
          have hready : some "ready" ≠ some "archived" := by decide
          refine Or.inr ⟨insertedCard "t_1" draft, ?_, ⟨hready, rfl, rfl, rfl⟩, rfl, rfl⟩
          rintro key hkey t ht hstatus hkey'
          cases hkey
          have hno := List.find?_eq_none.1 hfind t ht
          simp [hstatus, hkey'] at hno
  surround _ _ := none
  surround_sound := nofun

/-- Two starts for `LOL-1` and an empty board. -/
def raceConfig : BoardConfig Bool := ⟨fun _ => (start cardContext).run, []⟩

/-- Both look at the board before either creates, and the first creates its card. -/
def raceChecked : List (BoardLabel Bool) × BoardConfig Bool :=
  (boardDriver Bool).run [.inl false, .inl true, .inl false] raceConfig

/-- The second asks for a card as well. -/
def raceAsked : List (BoardLabel Bool) × BoardConfig Bool :=
  (boardDriver Bool).run ([true].map .inl) raceChecked.2

/-- One card comes of it. -/
theorem race_one_card : OneCard raceAsked.2.world ∧
    ∀ m₁ e m₂, (boardSemantics Bool).Passes raceChecked.2 raceAsked.1 raceAsked.2 m₁
      (.call true e) m₂ → m₂.world = m₁.world := by
  have hchecked : (boardSemantics Bool).Run raceConfig raceChecked.1 raceChecked.2 :=
    (boardDriver Bool).run_sound _ _
  have hasked : (boardSemantics Bool).Run raceChecked.2 raceAsked.1 raceAsked.2 :=
    (boardDriver Bool).run_sound _ _
  have hempty : OneCard raceConfig.world := fun _ => Nat.zero_le _
  have hstart : ∀ p, raceConfig.progs p = (start ((fun _ => cardContext) p)).run := fun _ => rfl
  have hmain := one_card_per_issue (hchecked.trans hasked) hstart hempty
  have hready : (some "ready" : Option String) ≠ some "archived" := by decide
  refine ⟨hmain.1, (hmain.2.1 raceChecked.1 raceAsked.1 raceChecked.2 true
    (insertedCard "t_1" (runtimeDraft cardContext)) rfl hchecked hasked
    List.mem_cons_self (BoardTask.openFor_iff.2 ⟨hready, rfl⟩) ?_).1⟩
  intro hl
  obtain ⟨_, -, _, heq⟩ := (boardDriver Bool).mem_run_turns hl
  cases heq

end HermesRuntime
