import HermesRuntime.CardMatch

/-!
# Which cards exist

`match_existing_cards` decides whether an issue is dispatched at all, and which card a run is
judged on. Its search, its two loops and its early skip come to this: an identifier is mapped to
the least id of the tasks that are not archived and have it as a token.

* `searchIdentifier_iff` — the search finds exactly the occurrences at a boundary.
* `lookup_matchExistingCards_iff` — what an identifier is mapped to.
* `matchExistingCards_exact` — with what the result does not depend on.
-/

namespace HermesRuntime

/-! ## Tokens -/

/-- The text has the identifier at a position neither after nor before a character of one. -/
def HasToken (identifier text : List Char) : Prop :=
  ∃ before after, text = before ++ identifier ++ after ∧
    (∀ c, before.getLast? = some c → isIdentifierChar c = false) ∧
    ∀ c, after.head? = some c → isIdentifierChar c = false

theorem any_eq_false_iff {o : Option Char} {p : Char → Bool} :
    o.any p = false ↔ ∀ c, o = some c → p c = false := by
  cases o with
  | none => exact ⟨fun _ => nofun, fun _ => rfl⟩
  | some d =>
      constructor
      · intro h c hc
        cases hc
        exact h
      · exact fun h => h d rfl

theorem getLast?_cons_or (c : Char) (before : List Char) (previous : Option Char) :
    (c :: before).getLast?.or previous = before.getLast?.or (some c) := by
  cases before with
  | nil => rfl
  | cons d before =>
      rw [List.getLast?_cons_cons, List.getLast?_eq_some_getLast (List.cons_ne_nil d before),
        Option.some_or, Option.some_or]

/-- The identifier is found where the text starts. -/
theorem startsHere_iff {identifier : List Char} {previous : Option Char} {text : List Char} :
    (identifier.isPrefixOf text && !previous.any isIdentifierChar &&
      !(text.drop identifier.length).head?.any isIdentifierChar) = true ↔
      ∃ after, text = identifier ++ after ∧ previous.any isIdentifierChar = false ∧
        after.head?.any isIdentifierChar = false := by
  rw [Bool.and_eq_true, Bool.and_eq_true, Bool.not_eq_true', Bool.not_eq_true',
    List.isPrefixOf_iff_prefix]
  constructor
  · rintro ⟨⟨⟨after, rfl⟩, hprevious⟩, hafter⟩
    rw [List.drop_left] at hafter
    exact ⟨after, rfl, hprevious, hafter⟩
  · rintro ⟨after, rfl, hprevious, hafter⟩
    rw [List.drop_left]
    exact ⟨⟨⟨after, rfl⟩, hprevious⟩, hafter⟩

/-- **The search finds exactly the occurrences at a boundary**; `previous` is the character
before the text. -/
theorem searchIdentifier_iff {identifier : List Char} {previous : Option Char}
    {text : List Char} :
    searchIdentifier identifier previous text = true ↔
      ∃ before after, text = before ++ identifier ++ after ∧
        (before.getLast?.or previous).any isIdentifierChar = false ∧
        after.head?.any isIdentifierChar = false := by
  induction text generalizing previous with
  | nil =>
      rw [searchIdentifier, Bool.or_false, startsHere_iff]
      constructor
      · rintro ⟨after, htext, hprevious, hafter⟩
        exact ⟨[], after, htext, hprevious, hafter⟩
      · rintro ⟨before, after, htext, hprevious, hafter⟩
        obtain ⟨hleft, rfl⟩ := List.append_eq_nil_iff.1 htext.symm
        obtain ⟨rfl, rfl⟩ := List.append_eq_nil_iff.1 hleft
        exact ⟨[], rfl, hprevious, hafter⟩
  | cons c rest ih =>
      rw [searchIdentifier, Bool.or_eq_true, startsHere_iff]
      constructor
      · rintro (⟨after, htext, hprevious, hafter⟩ | hrest)
        · exact ⟨[], after, htext, hprevious, hafter⟩
        · obtain ⟨before, after, htext, hbefore, hafter⟩ := ih.1 hrest
          refine ⟨c :: before, after, by rw [htext]; rfl, ?_, hafter⟩
          rw [getLast?_cons_or]
          exact hbefore
      · rintro ⟨before, after, htext, hbefore, hafter⟩
        cases before with
        | nil => exact Or.inl ⟨after, htext, hbefore, hafter⟩
        | cons d before =>
            obtain ⟨rfl, hrest⟩ := List.cons.inj htext
            rw [getLast?_cons_or] at hbefore
            exact Or.inr (ih.2 ⟨before, after, hrest, hbefore, hafter⟩)

theorem searchIdentifier_eq_hasToken {identifier text : List Char} :
    searchIdentifier identifier none text = true ↔ HasToken identifier text := by
  rw [searchIdentifier_iff, HasToken]
  simp only [Option.or_none, any_eq_false_iff]

/-- The title or the body of the task contains the identifier as a token; a missing one is
empty. -/
def BoardTask.Contains (task : BoardTask) (identifier : String) : Prop :=
  HasToken identifier.toList (task.title.getD "").toList ∨
    HasToken identifier.toList (task.body.getD "").toList

theorem BoardTask.mentions_iff {task : BoardTask} {identifier : String} :
    task.mentions identifier = true ↔ task.Contains identifier := by
  rw [BoardTask.mentions, Bool.or_eq_true, searchIdentifier_eq_hasToken,
    searchIdentifier_eq_hasToken, BoardTask.Contains]

/-- The task is a card of the identifier: not archived, and containing it. -/
def BoardTask.CardOf (task : BoardTask) (identifier : String) : Prop :=
  task.status ≠ some "archived" ∧ task.Contains identifier

theorem BoardTask.counts_iff {task : BoardTask} {identifier : String} :
    task.counts identifier = true ↔ task.CardOf identifier := by
  rw [BoardTask.counts, Bool.and_eq_true, decide_eq_true_iff, BoardTask.mentions_iff,
    BoardTask.CardOf]

/-! ## What an identifier is mapped to -/

theorem firstCard_isSome {tasks : List BoardTask} {identifier : String} :
    (firstCard tasks identifier).isSome ↔ ∃ t ∈ tasks, t.CardOf identifier := by
  rw [← Option.ne_none_iff_isSome, Ne, firstCard_eq_none]
  push Not
  simp only [Bool.not_eq_false, BoardTask.counts_iff]

/-- Nothing is found for what was not asked. -/
theorem lookup_matchExistingCards_of_notMem (tasks : List BoardTask) {identifiers : List String}
    {identifier : String} (h : identifier ∉ identifiers) :
    (matchExistingCards tasks identifiers).lookup identifier = none := by
  have hwanted : identifier ∉ identifiers.eraseDups := fun hmem => h (List.mem_eraseDups.1 hmem)
  unfold matchExistingCards
  generalize tasks.insertionSort (fun t t' => t.id ≤ t'.id) = sorted
  suffices hfold : ∀ found : Mapping String, found.lookup identifier = none →
      (sorted.foldl (fun found task => if task.status = some "archived" then found
        else matchCard task identifiers.eraseDups found) found).lookup identifier = none from
    hfold ∅ (AList.lookup_empty identifier)
  induction sorted with
  | nil => exact fun _ hnone => hnone
  | cons task sorted ih =>
      intro found hnone
      rw [List.foldl_cons]
      refine ih _ ?_
      split
      · exact hnone
      · rw [lookup_matchCard, hnone, if_neg fun hc => hwanted hc.1, Option.or_none]

/-- **What an identifier is mapped to**: the least id of its cards. -/
theorem lookup_matchExistingCards_iff {tasks : List BoardTask} {identifiers : List String}
    {identifier id : String} :
    (matchExistingCards tasks identifiers).lookup identifier = some id ↔
      identifier ∈ identifiers ∧ (∃ t ∈ tasks, t.CardOf identifier ∧ t.id = id) ∧
        ∀ t ∈ tasks, t.CardOf identifier → id ≤ t.id := by
  by_cases hmem : identifier ∈ identifiers
  · rw [lookup_matchExistingCards tasks hmem, Option.map_eq_some_iff]
    constructor
    · rintro ⟨t, ht, rfl⟩
      obtain ⟨htask, hcounts, hleast⟩ := firstCard_eq_some ht
      exact ⟨hmem, ⟨t, htask, BoardTask.counts_iff.1 hcounts, rfl⟩,
        fun t' ht' hcard => hleast t' ht' (BoardTask.counts_iff.2 hcard)⟩
    · rintro ⟨-, ⟨t, ht, hcard, rfl⟩, hleast⟩
      obtain ⟨t', ht'⟩ := Option.isSome_iff_exists.1 (firstCard_isSome.2 ⟨t, ht, hcard⟩)
      obtain ⟨hmem', hcounts', hleast'⟩ := firstCard_eq_some ht'
      exact ⟨t', ht', le_antisymm (hleast' t ht (BoardTask.counts_iff.2 hcard))
        (hleast t' hmem' (BoardTask.counts_iff.1 hcounts'))⟩
  · rw [lookup_matchExistingCards_of_notMem tasks hmem]
    exact ⟨nofun, fun h => absurd h.1 hmem⟩

theorem mem_keys_matchExistingCards {tasks : List BoardTask} {identifiers : List String}
    {identifier : String} :
    identifier ∈ (matchExistingCards tasks identifiers).keys ↔
      identifier ∈ identifiers ∧ ∃ t ∈ tasks, t.CardOf identifier := by
  rw [← AList.mem_keys, ← AList.lookup_isSome]
  by_cases hmem : identifier ∈ identifiers
  · rw [lookup_matchExistingCards tasks hmem, Option.isSome_map, firstCard_isSome]
    exact ⟨fun h => ⟨hmem, h⟩, fun h => h.2⟩
  · rw [lookup_matchExistingCards_of_notMem tasks hmem]
    exact ⟨nofun, fun h => absurd h.1 hmem⟩

/-- **Only the cards of an identifier matter to it.** -/
theorem lookup_matchExistingCards_congr {tasks tasks' : List BoardTask}
    {identifiers identifiers' : List String} {identifier : String}
    (hmem : identifier ∈ identifiers ↔ identifier ∈ identifiers')
    (h : ∀ id, (∃ t ∈ tasks, t.CardOf identifier ∧ t.id = id) ↔
      ∃ t ∈ tasks', t.CardOf identifier ∧ t.id = id) :
    (matchExistingCards tasks identifiers).lookup identifier =
      (matchExistingCards tasks' identifiers').lookup identifier := by
  have hleast : ∀ (tasks₁ tasks₂ : List BoardTask) (id : String),
      (∀ id, (∃ t ∈ tasks₂, t.CardOf identifier ∧ t.id = id) →
        ∃ t ∈ tasks₁, t.CardOf identifier ∧ t.id = id) →
      (∀ t ∈ tasks₁, t.CardOf identifier → id ≤ t.id) →
      ∀ t ∈ tasks₂, t.CardOf identifier → id ≤ t.id := by
    intro tasks₁ tasks₂ id hsub hle t ht hcard
    obtain ⟨t', ht', hcard', hid⟩ := hsub t.id ⟨t, ht, hcard, rfl⟩
    rw [← hid]
    exact hle t' ht' hcard'
  refine Option.ext fun id => ?_
  rw [lookup_matchExistingCards_iff, lookup_matchExistingCards_iff, hmem, h id]
  constructor
  · rintro ⟨hi, hcard, hle⟩
    exact ⟨hi, hcard, hleast tasks tasks' id (fun id => (h id).2) hle⟩
  · rintro ⟨hi, hcard, hle⟩
    exact ⟨hi, hcard, hleast tasks' tasks id (fun id => (h id).1) hle⟩

/-- **Existing-card matching is exact.** An identifier is mapped exactly when it was asked for
and has a card, to the least id of its cards. So the order of the tasks does not matter, nor do
tasks that do not contain the identifier, whatever their status, and asking for it among others
is asking for it alone. -/
theorem matchExistingCards_exact (tasks : List BoardTask) (identifiers : List String)
    (identifier : String) :
    (identifier ∈ (matchExistingCards tasks identifiers).keys ↔
      identifier ∈ identifiers ∧ ∃ t ∈ tasks, t.CardOf identifier) ∧
    (∀ id, (matchExistingCards tasks identifiers).lookup identifier = some id ↔
      identifier ∈ identifiers ∧ (∃ t ∈ tasks, t.CardOf identifier ∧ t.id = id) ∧
        ∀ t ∈ tasks, t.CardOf identifier → id ≤ t.id) ∧
    (∀ tasks', tasks.Perm tasks' → (matchExistingCards tasks' identifiers).lookup identifier =
      (matchExistingCards tasks identifiers).lookup identifier) ∧
    (∀ before after task, tasks = before ++ after → ¬ task.Contains identifier →
      (matchExistingCards (before ++ task :: after) identifiers).lookup identifier =
        (matchExistingCards tasks identifiers).lookup identifier) ∧
    (∀ before after task, tasks = before ++ task :: after → ¬ task.Contains identifier →
      (matchExistingCards (before ++ { task with status := some "archived" } :: after)
        identifiers).lookup identifier =
        (matchExistingCards tasks identifiers).lookup identifier) ∧
    (identifier ∈ identifiers → (matchExistingCards tasks [identifier]).lookup identifier =
      (matchExistingCards tasks identifiers).lookup identifier) := by
  -- a task that does not contain the identifier is none of its cards
  have hskip : ∀ (before after : List BoardTask) (task : BoardTask), ¬ task.Contains identifier →
      ∀ id, (∃ t ∈ before ++ task :: after, t.CardOf identifier ∧ t.id = id) ↔
        ∃ t ∈ before ++ after, t.CardOf identifier ∧ t.id = id := by
    intro before after task hno id
    constructor
    · rintro ⟨t, ht, hcard, hid⟩
      rcases List.mem_append.1 ht with hb | ha
      · exact ⟨t, List.mem_append_left _ hb, hcard, hid⟩
      · rcases List.mem_cons.1 ha with rfl | ha
        · exact absurd hcard.2 hno
        · exact ⟨t, List.mem_append_right _ ha, hcard, hid⟩
    · rintro ⟨t, ht, hcard, hid⟩
      rcases List.mem_append.1 ht with hb | ha
      · exact ⟨t, List.mem_append_left _ hb, hcard, hid⟩
      · exact ⟨t, List.mem_append_right _ (List.mem_cons_of_mem _ ha), hcard, hid⟩
  refine ⟨mem_keys_matchExistingCards, fun id => lookup_matchExistingCards_iff, ?_, ?_, ?_, ?_⟩
  · intro tasks' hperm
    refine lookup_matchExistingCards_congr Iff.rfl fun id => ?_
    simp only [hperm.mem_iff]
  · rintro before after task rfl hno
    exact lookup_matchExistingCards_congr Iff.rfl (hskip before after task hno)
  · rintro before after task rfl hno
    refine lookup_matchExistingCards_congr Iff.rfl fun id => ?_
    rw [hskip before after { task with status := some "archived" } hno id,
      hskip before after task hno id]
  · intro hmem
    refine lookup_matchExistingCards_congr ?_ fun id => Iff.rfl
    rw [List.mem_singleton]
    exact ⟨fun _ => hmem, fun _ => rfl⟩

end HermesRuntime
