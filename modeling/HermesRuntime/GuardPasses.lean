import HermesRuntime.BoardCards
import HermesRuntime.Classification
import HermesRuntime.GuardBound

/-!
# One pass of the guard after another

The guard lets an issue through once: the card it is dispatched with keeps it from the passes
after. That takes the text of the cards, since an issue is known to have a card by its identifier
in the title or the body, and no other memory is kept.

* `eq_of_hasToken` — a text with one word that has a digit has no other token with a digit.
* `cardOf_draft_iff` — the card of a run is a card of its issue, and of no other.
* `dispatched_eq` — what one pass dispatches.
* `guard_passes` — what many do: each issue that is to be dispatched goes through exactly once.
-/

namespace HermesRuntime

/-! ## Tokens with a digit -/

/-- An identifier as Linear gives them: a word with a digit. -/
def IsLinearId (identifier : String) : Prop :=
  identifier.toList.all isIdentifierChar = true ∧ identifier.toList.any Char.isDigit = true

instance (identifier : String) : Decidable (IsLinearId identifier) :=
  inferInstanceAs (Decidable (_ = true ∧ _ = true))

theorem no_digit {l : List Char} (h : l.any Char.isDigit = false) :
    ∀ c ∈ l, c.isDigit = false := fun c hc => by
  simpa using List.any_eq_false.1 h c hc

theorem getLast?_of_eq {l : List Char} {d : Char} (h : l.getLast? = some d)
    (hd : isIdentifierChar d = false) :
    ∀ c, l.getLast? = some c → isIdentifierChar c = false := by
  intro c hc
  rw [h] at hc
  exact Option.some.inj hc ▸ hd

section Tokens

variable {before word after i : List Char}

/-- In a text with digits in one word only, the only token with a digit is this word. -/
theorem eq_of_hasToken (hword : word.all isIdentifierChar = true)
    (hbefore : ∀ c ∈ before, c.isDigit = false) (hafter : ∀ c ∈ after, c.isDigit = false)
    (hlast : ∀ c, before.getLast? = some c → isIdentifierChar c = false)
    (hhead : ∀ c, after.head? = some c → isIdentifierChar c = false)
    (hi : i.all isIdentifierChar = true) (hdigit : i.any Char.isDigit = true)
    (h : HasToken i (before ++ word ++ after)) : i = word := by
  obtain ⟨pre, post, htext, hpre, hpost⟩ := h
  obtain ⟨d, hd, hdigit⟩ := List.any_eq_true.1 hdigit
  rw [List.all_eq_true] at hword hi
  rw [List.append_assoc, List.append_assoc] at htext
  -- The token begins where the word does.
  have hstart : pre = before ∧ i ++ post = word ++ after := by
    rcases List.append_eq_append_iff.1 htext with ⟨gap, hgap, hrest⟩ | ⟨gap, hgap, hrest⟩
    · cases hlastgap : gap.getLast? with
      | none =>
          obtain rfl := List.getLast?_eq_none_iff.1 hlastgap
          exact ⟨by simpa using hgap, by simpa using hrest.symm⟩
      | some c =>
          -- What comes before the token would end inside the word, or after it.
          have hc : isIdentifierChar c = false := hpre c (by rw [hgap]; simp [hlastgap])
          rcases List.append_eq_append_iff.1 hrest with ⟨tail, htail, hi'⟩ | ⟨tail, htail, hi'⟩
          · have hmem : d ∈ after := by
              rw [hi']
              simp [hd]
            rw [hafter d hmem] at hdigit
            cases hdigit
          · have hmem : c ∈ word := by
              rw [htail]
              exact List.mem_append_left _ (List.mem_of_getLast? hlastgap)
            rw [hword c hmem] at hc
            cases hc
    · cases hlastgap : gap.getLast? with
      | none =>
          obtain rfl := List.getLast?_eq_none_iff.1 hlastgap
          exact ⟨by simpa using hgap.symm, by simpa using hrest⟩
      | some c =>
          -- The text before the word would end inside the token, or after it.
          have hc : isIdentifierChar c = false := hlast c (by rw [hgap]; simp [hlastgap])
          rcases List.append_eq_append_iff.1 hrest with ⟨tail, htail, hi'⟩ | ⟨tail, htail, hi'⟩
          · have hmem : d ∈ before := by
              rw [hgap, htail]
              simp [hd]
            rw [hbefore d hmem] at hdigit
            cases hdigit
          · have hmem : c ∈ i := by
              rw [htail]
              exact List.mem_append_left _ (List.mem_of_getLast? hlastgap)
            rw [hi c hmem] at hc
            cases hc
  -- And it ends where the word does.
  rcases List.append_eq_append_iff.1 hstart.2 with ⟨tail, htail, hend⟩ | ⟨tail, htail, hend⟩
  · cases tail with
    | nil => simpa using htail.symm
    | cons c tail =>
        have hc : isIdentifierChar c = false := hpost c (by rw [hend]; rfl)
        rw [hword c (by rw [htail]; simp)] at hc
        cases hc
  · cases tail with
    | nil => simpa using htail
    | cons c tail =>
        have hc : isIdentifierChar c = false := hhead c (by rw [hend]; rfl)
        rw [hi c (by rw [htail]; simp)] at hc
        cases hc

end Tokens

/-! ## The card of a run -/

/-- The agents of `AGENTS` have no digits. -/
theorem no_digit_of_agent {agent : String} (h : agent ∈ agents.map Prod.snd) :
    ∀ c ∈ agent.toList, c.isDigit = false := by
  have hall : (agents.map Prod.snd).all (fun a => !a.toList.any Char.isDigit) = true := by decide
  exact no_digit (by simpa using List.all_eq_true.1 hall agent h)

theorem agent_of_context {issue : Issue} {c : ExecutionContext} (h : IsContextOf issue c) :
    c.agent ∈ agents.map Prod.snd := by
  obtain ⟨-, -, hagent, -⟩ := classifyIssue_eq_ok_iff.1 h.1
  have hmem : c.agent ∈ issue.labels.filterMap fun l => agents.lookup l := by
    rw [hagent]
    exact List.mem_singleton_self _
  obtain ⟨l, -, hl⟩ := List.mem_filterMap.1 hmem
  obtain ⟨pre, post, htable, -⟩ := List.lookup_eq_some_iff.1 hl
  rw [htable]
  simp

/-- How the body of a card goes on after the agent. -/
def bodyEnd : String :=
  ").\n\nExecutar a implementacao descrita na issue Linear e concluir este card com evidencia.\n"

/-- **The card of a run is a card of its issue, and of no other.** -/
theorem cardOf_draft_iff {issue : Issue} {c : ExecutionContext} (hc : IsContextOf issue c)
    (hid : IsLinearId c.linearIssueId) {t : BoardTask} (ht : t.MadeFrom (runtimeDraft c))
    {i : String} (hi : IsLinearId i) : t.CardOf i ↔ i = c.linearIssueId := by
  obtain ⟨hstatus, htitle, hbody, -⟩ := ht
  have hagent := no_digit_of_agent (agent_of_context hc)
  constructor
  · rintro ⟨-, htoken | htoken⟩
    · rw [htitle] at htoken
      have hchars : HasToken i.toList
          ("[runtime] ".toList ++ c.linearIssueId.toList ++ []) := by
        simpa [runtimeDraft, String.toList_append] using htoken
      exact String.toList_inj.1 (eq_of_hasToken hid.1 (no_digit rfl) (by simp)
        (getLast?_of_eq (d := ' ') rfl rfl) (by simp) hi.1 hi.2 hchars)
    · rw [hbody] at htoken
      have hchars : HasToken i.toList
          ("Runtime dispatch for Linear ".toList ++ c.linearIssueId.toList ++
            (" (agent ".toList ++ c.agent.toList ++ bodyEnd.toList)) := by
        simpa [runtimeDraft, bodyEnd, String.toList_append, List.append_assoc] using htoken
      refine String.toList_inj.1 (eq_of_hasToken hid.1 (no_digit rfl) (fun ch hch => ?_)
        (getLast?_of_eq (d := ' ') rfl rfl) (fun ch hch => ?_) hi.1 hi.2 hchars)
      · rw [List.mem_append, List.mem_append] at hch
        rcases hch with (hch | hch) | hch
        · exact no_digit rfl ch hch
        · exact hagent ch hch
        · exact no_digit rfl ch hch
      · have hspace : ch = ' ' := by simpa using hch.symm
        rw [hspace]
        decide
  · rintro rfl
    exact cardOf_of_title hstatus htitle

/-! ## One pass -/

/-- The snapshot is one to dispatch: its labels pass the guard and the board has no card of it. -/
def eligible (board : List BoardTask) (s : LinearIssueSnapshot) : Bool :=
  (gateBlockReason s.labels).isNone && !board.any (·.counts s.identifier)

theorem eligible_iff {board : List BoardTask} {s : LinearIssueSnapshot} :
    eligible board s = true ↔
      gateBlockReason s.labels = none ∧ ∀ t ∈ board, ¬ t.CardOf s.identifier := by
  simp only [eligible, Bool.and_eq_true, Option.isNone_iff_eq_none, Bool.not_eq_true',
    List.any_eq_false, BoardTask.counts_iff]

/-- **What one pass dispatches**: the first of those to dispatch, up to the bound. -/
theorem dispatched_eq {board : List BoardTask} {snapshots : List LinearIssueSnapshot} {bound : ℕ}
    {outcome : GuardOutcome} (hbound : 1 ≤ bound)
    (h : selectWithGuard snapshots
      (matchExistingCards board (snapshots.map (·.identifier))).keys bound = .ok outcome) :
    outcome.dispatched = (snapshots.filter (eligible board)).take bound := by
  rw [selectWithGuard_eq snapshots _ (by exact_mod_cast hbound)] at h
  cases h
  show (snapshots.filter _).take (bound : Int).toNat = _
  rw [Int.toNat_natCast]
  congr 1
  refine List.filter_congr fun s hs => ?_
  rw [Bool.eq_iff_iff, passes_iff, eligible_iff, mem_keys_matchExistingCards, And.comm]
  refine and_congr_right fun _ => ?_
  constructor
  · intro hnone t ht hcard
    exact hnone ⟨List.mem_map_of_mem hs, t, ht, hcard⟩
  · rintro hnone ⟨-, t, ht, hcard⟩
    exact hnone t ht hcard

/-- Whatever the board looks like, a pass with a bound goes through. -/
theorem selectWithGuard_ok (board : List BoardTask) (snapshots : List LinearIssueSnapshot)
    {bound : ℕ} (hbound : 1 ≤ bound) :
    ∃ outcome, selectWithGuard snapshots
      (matchExistingCards board (snapshots.map (·.identifier))).keys bound = .ok outcome ∧
      outcome.dispatched = (snapshots.filter (eligible board)).take bound := by
  have h := selectWithGuard_eq snapshots
    (matchExistingCards board (snapshots.map (·.identifier))).keys
    (show (1 : Int) ≤ bound by exact_mod_cast hbound)
  exact ⟨_, h, dispatched_eq hbound h⟩

/-- What is left of a card by those who work on it: its title, its body, and that it is archived or
not. -/
structure BoardTask.Keeps (t t' : BoardTask) : Prop where
  title : t'.title = t.title
  body : t'.body = t.body
  archived : t'.status = some "archived" ↔ t.status = some "archived"

theorem BoardTask.Keeps.cardOf_iff {t t' : BoardTask} (h : t.Keeps t') {i : String} :
    t'.CardOf i ↔ t.CardOf i := by
  unfold BoardTask.CardOf BoardTask.Contains
  rw [h.title, h.body]
  exact and_congr_left fun _ => not_congr h.archived

/-- The card is the one of a run of the issue. -/
def IsCardFor (s : LinearIssueSnapshot) (t : BoardTask) : Prop :=
  ∃ c, IsContextOf s.issue c ∧ t.MadeFrom (runtimeDraft c)

/-- What a pass and the time after it make of the board: each dispatched issue gets its card, others
add cards of other issues, and no card is archived or rewritten. -/
def BoardAfter (backlog : List LinearIssueSnapshot) (board : List BoardTask)
    (dispatched : List LinearIssueSnapshot) (board' : List BoardTask) : Prop :=
  ∃ cards others, List.Forall₂ IsCardFor dispatched cards ∧
    (∀ t ∈ others, ∀ s ∈ backlog, ¬ t.CardOf s.identifier) ∧
    List.Forall₂ BoardTask.Keeps (board ++ cards ++ others) board'

theorem exists_cardOf_forall₂ {tasks tasks' : List BoardTask}
    (h : List.Forall₂ BoardTask.Keeps tasks tasks') {i : String} :
    (∃ t ∈ tasks', t.CardOf i) ↔ ∃ t ∈ tasks, t.CardOf i := by
  induction h with
  | nil => rfl
  | cons hkeeps _ ih => simp only [List.exists_mem_cons_iff, hkeeps.cardOf_iff, ih]

/-- The cards of a pass are cards of its issues, and of no others. -/
theorem exists_cardOf_cards {dispatched : List LinearIssueSnapshot} {cards : List BoardTask}
    (h : List.Forall₂ IsCardFor dispatched cards)
    (hids : ∀ s ∈ dispatched, IsLinearId s.identifier) {i : String} (hi : IsLinearId i) :
    (∃ t ∈ cards, t.CardOf i) ↔ i ∈ dispatched.map (·.identifier) := by
  induction h with
  | nil => simp
  | @cons s t dispatched cards hcard _ ih =>
      obtain ⟨c, hcontext, hmade⟩ := hcard
      have hid : c.linearIssueId = s.identifier := hcontext.2.1
      have hs := hids s List.mem_cons_self
      rw [List.exists_mem_cons_iff, List.map_cons, List.mem_cons,
        cardOf_draft_iff hcontext (hid ▸ hs) hmade hi, hid,
        ih fun s' hs' => hids s' (List.mem_cons_of_mem _ hs')]

/-- What is left to dispatch after a pass: what was before it, but for what it dispatched. -/
theorem eligible_after {backlog dispatched : List LinearIssueSnapshot}
    {board board' : List BoardTask} (hnodup : (backlog.map (·.identifier)).Nodup)
    (hids : ∀ s ∈ backlog, IsLinearId s.identifier) (hsub : ∀ s ∈ dispatched, s ∈ backlog)
    (h : BoardAfter backlog board dispatched board') {s : LinearIssueSnapshot} (hs : s ∈ backlog) :
    eligible board' s = true ↔ eligible board s = true ∧ s ∉ dispatched := by
  obtain ⟨cards, others, hcards, hothers, hkeeps⟩ := h
  have hcardOf : (∃ t ∈ board', t.CardOf s.identifier) ↔
      (∃ t ∈ board, t.CardOf s.identifier) ∨ s ∈ dispatched := by
    rw [exists_cardOf_forall₂ hkeeps]
    simp only [List.mem_append, or_and_right, exists_or]
    rw [exists_cardOf_cards hcards (fun s' hs' => hids s' (hsub s' hs')) (hids s hs)]
    have hnone : ¬ ∃ t ∈ others, t.CardOf s.identifier := by
      rintro ⟨t, ht, hcard⟩
      exact hothers t ht s hs hcard
    rw [or_iff_left hnone]
    refine or_congr_right ⟨fun hmem => ?_, List.mem_map_of_mem⟩
    obtain ⟨s', hs', hid⟩ := List.mem_map.1 hmem
    rwa [← List.inj_on_of_nodup_map hnodup (hsub s' hs') hs hid]
  have hnone : (∀ t ∈ board', ¬ t.CardOf s.identifier) ↔
      (∀ t ∈ board, ¬ t.CardOf s.identifier) ∧ s ∉ dispatched := by
    have hnot := not_congr hcardOf
    push Not at hnot
    exact hnot
  rw [eligible_iff, eligible_iff, hnone, and_assoc]

/-! ## Many passes -/

/-- Passes of the guard over one backlog, each of which may see it in another order: the board
before them, what each dispatches, and the board after them. -/
inductive Passes (backlog : List LinearIssueSnapshot) (bound : ℕ) :
    List BoardTask → List (List LinearIssueSnapshot) → List BoardTask → Prop
  | none {board : List BoardTask} : Passes backlog bound board [] board
  | pass {board board' last : List BoardTask} {snapshots : List LinearIssueSnapshot}
      {outcome : GuardOutcome} {rest : List (List LinearIssueSnapshot)}
      (hread : snapshots.Perm backlog)
      (hguard : selectWithGuard snapshots
        (matchExistingCards board (snapshots.map (·.identifier))).keys bound = .ok outcome)
      (hboard : BoardAfter backlog board outcome.dispatched board')
      (hrest : Passes backlog bound board' rest last) :
      Passes backlog bound board (outcome.dispatched :: rest) last

section Passes

variable {backlog : List LinearIssueSnapshot} {bound : ℕ} {board board' : List BoardTask}

/-- What a pass dispatches are some of those to dispatch, and as many as the bound allows. -/
theorem dispatched_of_perm {snapshots : List LinearIssueSnapshot} {outcome : GuardOutcome}
    (hbound : 1 ≤ bound) (hnodup : backlog.Nodup) (hread : snapshots.Perm backlog)
    (hguard : selectWithGuard snapshots
      (matchExistingCards board (snapshots.map (·.identifier))).keys bound = .ok outcome) :
    outcome.dispatched.Nodup ∧
      (∀ s ∈ outcome.dispatched, s ∈ backlog ∧ eligible board s = true) ∧
      outcome.dispatched.length = min bound (backlog.countP (eligible board)) := by
  rw [dispatched_eq hbound hguard]
  have hperm : (snapshots.filter (eligible board)).Perm (backlog.filter (eligible board)) :=
    hread.filter _
  refine ⟨?_, fun s hs => ?_, ?_⟩
  · exact (hperm.nodup_iff.2 (hnodup.filter _)).sublist (List.take_sublist _ _)
  · exact List.mem_filter.1 (hperm.mem_iff.1 (List.mem_of_mem_take hs))
  · rw [List.length_take, hperm.length_eq, List.countP_eq_length_filter]

/-- A pass leaves as many to dispatch as it has not dispatched. -/
theorem countP_after {dispatched : List LinearIssueSnapshot}
    (hnodup : (backlog.map (·.identifier)).Nodup) (hids : ∀ s ∈ backlog, IsLinearId s.identifier)
    (hd : dispatched.Nodup) (hsub : ∀ s ∈ dispatched, s ∈ backlog ∧ eligible board s = true)
    (h : BoardAfter backlog board dispatched board') :
    backlog.countP (eligible board') + dispatched.length = backlog.countP (eligible board) := by
  have hbacklog : backlog.Nodup := hnodup.of_map _
  -- Those to dispatch are the ones the pass dispatches and the ones it leaves.
  have hperm : (dispatched ++ backlog.filter (eligible board')).Perm
      (backlog.filter (eligible board)) := by
    refine (List.perm_ext_iff_of_nodup (List.nodup_append'.2 ⟨hd, hbacklog.filter _, ?_⟩)
      (hbacklog.filter _)).2 fun s => ?_
    · intro s hs hleft
      obtain ⟨hs', hleft⟩ := List.mem_filter.1 hleft
      exact ((eligible_after hnodup hids (fun s hs => (hsub s hs).1) h hs').1 hleft).2 hs
    · rw [List.mem_append, List.mem_filter, List.mem_filter]
      constructor
      · rintro (hs | ⟨hs, hleft⟩)
        · exact hsub s hs
        · exact ⟨hs, ((eligible_after hnodup hids (fun s hs => (hsub s hs).1) h hs).1 hleft).1⟩
      · rintro ⟨hs, helig⟩
        by_cases hmem : s ∈ dispatched
        · exact Or.inl hmem
        · exact Or.inr ⟨hs, (eligible_after hnodup hids (fun s hs => (hsub s hs).1) h hs).2
            ⟨helig, hmem⟩⟩
  have hlength := hperm.length_eq
  rw [List.length_append] at hlength
  rw [List.countP_eq_length_filter, List.countP_eq_length_filter]
  omega

/-- **Passes let each issue through once.** Over a backlog of issues with different identifiers,
however each pass sees it ordered and whatever the cards look like: no issue is dispatched twice,
only issues are that pass the policy and had no card, and every pass dispatches as many of those
left as the bound allows. So after enough passes each of them has been dispatched. -/
theorem guard_passes {dispatched : List (List LinearIssueSnapshot)} (hbound : 1 ≤ bound)
    (hnodup : (backlog.map (·.identifier)).Nodup) (hids : ∀ s ∈ backlog, IsLinearId s.identifier)
    (h : Passes backlog bound board dispatched board') :
    dispatched.flatten.Nodup ∧
      (∀ s ∈ dispatched.flatten, s ∈ backlog ∧ eligible board s = true) ∧
      dispatched.flatten.length =
        min (dispatched.length * bound) (backlog.countP (eligible board)) ∧
      (backlog.countP (eligible board) ≤ dispatched.length * bound →
        ∀ s ∈ backlog, eligible board s = true → s ∈ dispatched.flatten) := by
  have hbacklog : backlog.Nodup := hnodup.of_map _
  have hcounts : dispatched.flatten.Nodup ∧
      (∀ s ∈ dispatched.flatten, s ∈ backlog ∧ eligible board s = true) ∧
      dispatched.flatten.length =
        min (dispatched.length * bound) (backlog.countP (eligible board)) := by
    induction h with
    | none => simp
    | @pass board board' last snapshots outcome rest hread hguard hboard _ ih =>
        obtain ⟨hd, hsub, hlength⟩ := dispatched_of_perm hbound hbacklog hread hguard
        obtain ⟨hrest, hrestsub, hrestlength⟩ := ih
        have hafter := fun {s} =>
          @eligible_after backlog outcome.dispatched board board' hnodup hids
            (fun s hs => (hsub s hs).1) hboard s
        have hcount := countP_after hnodup hids hd hsub hboard
        refine ⟨?_, fun s hs => ?_, ?_⟩
        · rw [List.flatten_cons]
          refine List.nodup_append'.2 ⟨hd, hrest, fun s hs hs' => ?_⟩
          obtain ⟨hmem, hleft⟩ := hrestsub s hs'
          exact ((hafter hmem).1 hleft).2 hs
        · rw [List.flatten_cons, List.mem_append] at hs
          rcases hs with hs | hs
          · exact hsub s hs
          · obtain ⟨hmem, hleft⟩ := hrestsub s hs
            exact ⟨hmem, ((hafter hmem).1 hleft).1⟩
        · rw [List.flatten_cons, List.length_append, hrestlength, hlength, List.length_cons,
            Nat.succ_mul]
          omega
  obtain ⟨hd, hsub, hlength⟩ := hcounts
  refine ⟨hd, hsub, hlength, fun henough s hs helig => ?_⟩
  rw [Nat.min_eq_right henough, List.countP_eq_length_filter] at hlength
  -- As many different ones as there are: all of them.
  have hsubset : dispatched.flatten ⊆ backlog.filter (eligible board) :=
    fun s hs => List.mem_filter.2 (hsub s hs)
  have hperm := (List.subperm_of_subset hd hsubset).perm_of_length_le hlength.ge
  exact hperm.mem_iff.2 (List.mem_filter.2 ⟨hs, helig⟩)

end Passes

/-! ### Two issues, one at a time -/

/-- A second issue beside `plainSnapshot`. -/
def nextSnapshot : LinearIssueSnapshot := { plainSnapshot with identifier := "LOL-2" }

/-- The context of a run of an issue of the QA agent. -/
def qaContext (identifier : String) : ExecutionContext where
  runId := newRunId 0 0
  linearIssueId := identifier
  agent := "qualidade"
  risk := "low"
  executionMode := "auto"
  environment := "local"

/-- Its card. -/
def qaCard (identifier : String) : BoardTask where
  id := "t_" ++ identifier
  status := some "todo"
  title := some (runtimeDraft (qaContext identifier)).title
  body := some (runtimeDraft (qaContext identifier)).body
  idempotencyKey := some (runtimeDraft (qaContext identifier)).idempotencyKey

theorem qaCard_isCardFor (s : LinearIssueSnapshot)
    (h : classifyIssue s.issue = .ok ("qualidade", "low", "auto", "local")) :
    IsCardFor s (qaCard s.identifier) :=
  ⟨qaContext s.identifier, ⟨h, rfl, 0, 0, rfl⟩, by simp [qaCard], rfl, rfl, rfl⟩

theorem keeps_refl (tasks : List BoardTask) : List.Forall₂ BoardTask.Keeps tasks tasks :=
  List.forall₂_same.2 fun _ _ => ⟨rfl, rfl, Iff.rfl⟩

theorem guard_passes_twice : ∃ dispatched : List (List LinearIssueSnapshot),
    dispatched.length = 2 ∧ dispatched.flatten.Nodup ∧
      plainSnapshot ∈ dispatched.flatten ∧ nextSnapshot ∈ dispatched.flatten := by
  have hnodup : ([plainSnapshot, nextSnapshot].map (·.identifier)).Nodup := by decide
  have hids : ∀ s ∈ [plainSnapshot, nextSnapshot], IsLinearId s.identifier := by decide
  -- The second pass sees the backlog the other way round.
  obtain ⟨first, hfirst, hd⟩ :=
    selectWithGuard_ok [] [plainSnapshot, nextSnapshot] (Nat.le_refl 1)
  rw [show ([plainSnapshot, nextSnapshot].filter (eligible [])).take 1 = [plainSnapshot] from by
    decide] at hd
  have hafter : BoardAfter [plainSnapshot, nextSnapshot] [] first.dispatched
      [qaCard "LOL-1"] := by
    rw [hd]
    exact ⟨[qaCard "LOL-1"], [], .cons (qaCard_isCardFor plainSnapshot (by decide)) .nil,
      by simp, keeps_refl _⟩
  have hsub : ∀ s ∈ first.dispatched, s ∈ [plainSnapshot, nextSnapshot] := by simp [hd]
  have hplain : eligible [qaCard "LOL-1"] plainSnapshot = false := by
    rw [← Bool.not_eq_true, eligible_after hnodup hids hsub hafter (by simp), hd]
    simp
  have hnext : eligible [qaCard "LOL-1"] nextSnapshot = true :=
    (eligible_after hnodup hids hsub hafter (by simp)).2 ⟨by decide, by rw [hd]; decide⟩
  obtain ⟨second, hsecond, hd'⟩ :=
    selectWithGuard_ok [qaCard "LOL-1"] [nextSnapshot, plainSnapshot] (Nat.le_refl 1)
  rw [List.filter_cons_of_pos hnext, List.filter_cons_of_neg (by simp [hplain])] at hd'
  have hafter' : BoardAfter [plainSnapshot, nextSnapshot] [qaCard "LOL-1"] second.dispatched
      [qaCard "LOL-1", qaCard "LOL-2"] := by
    rw [hd']
    exact ⟨[qaCard "LOL-2"], [], .cons (qaCard_isCardFor nextSnapshot (by decide)) .nil,
      by simp, keeps_refl _⟩
  obtain ⟨hnodup', -, -, hall⟩ := guard_passes (Nat.le_refl 1) hnodup hids
    (.pass (.refl _) hfirst hafter (.pass (List.Perm.swap _ _ _) hsecond hafter' .none))
  have hfew : [plainSnapshot, nextSnapshot].countP (eligible []) ≤ 2 * 1 := by decide
  exact ⟨_, rfl, hnodup', hall hfew plainSnapshot (by simp) (by decide),
    hall hfew nextSnapshot (by simp) (by decide)⟩

end HermesRuntime
