import HermesRuntime.ExecutionProof
import HermesRuntime.GuardPolicy
import HermesRuntime.KanbanCalls
import HermesRuntime.Lib.Counting

/-!
# The bound of a tick

The guard looks at the snapshots in order and stops each at the first of its checks that fails:
the cards, the labels, and the bound, which counts what the first two let through. So it accounts
for every snapshot once, and the tick behind it claims and creates at most as often as the bound
says.

* `verdicts` — what becomes of each snapshot.
* `dispatchedOf_verdicts`, `skippedOf_verdicts` — the two lists of the guard hold just that.
* `runOnce_bounded` — how many calls of a kind a pass makes.
* `guard_bounds_tick` — the guard and the tick behind it.
-/

namespace HermesRuntime

open Effects Prog Proc

/-! ## What stops a snapshot -/

/-- The guard that stops a snapshot before the bound does. -/
def stoppedBy (existing : List String) (s : LinearIssueSnapshot) : Option SkipReason :=
  if s.identifier ∈ existing then some .existingCard else (gateBlockReason s.labels).map .gate

/-- The snapshot has no card, and its labels pass. -/
def passes (existing : List String) (s : LinearIssueSnapshot) : Bool :=
  (stoppedBy existing s).isNone

/-- What becomes of a snapshot after those `before` it: `none` where it is dispatched. -/
def verdict (existing : List String) (maxDispatch : Int) (before : List LinearIssueSnapshot)
    (s : LinearIssueSnapshot) : Option SkipReason :=
  (stoppedBy existing s).or <|
    if (before.countP (passes existing) : Int) < maxDispatch then none
    else some (.bound maxDispatch)

/-- Each snapshot with what becomes of it. -/
def verdicts (existing : List String) (maxDispatch : Int) (before : List LinearIssueSnapshot) :
    List LinearIssueSnapshot → List (LinearIssueSnapshot × Option SkipReason)
  | [] => []
  | s :: rest =>
      (s, verdict existing maxDispatch before s) ::
        verdicts existing maxDispatch (before ++ [s]) rest

/-- The snapshots nothing stops. -/
def dispatchedOf (vs : List (LinearIssueSnapshot × Option SkipReason)) :
    List LinearIssueSnapshot :=
  (vs.filter (·.2.isNone)).map Prod.fst

/-- The skips of the others. -/
def skippedOf (vs : List (LinearIssueSnapshot × Option SkipReason)) : List Skip :=
  vs.filterMap fun v => v.2.map fun reason => ⟨v.1.identifier, reason⟩

section Verdicts

variable {existing : List String} {m : Int}

theorem passes_iff {s : LinearIssueSnapshot} : passes existing s = true ↔
    s.identifier ∉ existing ∧ gateBlockReason s.labels = none := by
  unfold passes stoppedBy
  by_cases hin : s.identifier ∈ existing
  · simp [hin]
  · simp [hin]

@[simp] theorem map_fst_verdicts (before snapshots : List LinearIssueSnapshot) :
    (verdicts existing m before snapshots).map Prod.fst = snapshots := by
  induction snapshots generalizing before with
  | nil => rfl
  | cons s rest ih => rw [verdicts, List.map_cons, ih]

/-- What the loop of the guard does with the next snapshot. -/
theorem applyGuards_cons (s : LinearIssueSnapshot) (rest : List LinearIssueSnapshot) :
    applyGuards existing (s :: rest) = match stoppedBy existing s with
      | some reason => ((applyGuards existing rest).1,
          ⟨s.identifier, reason⟩ :: (applyGuards existing rest).2)
      | none => (s :: (applyGuards existing rest).1, (applyGuards existing rest).2) := by
  unfold stoppedBy
  rw [applyGuards]
  by_cases hin : s.identifier ∈ existing
  · simp [hin]
  · cases hgate : gateBlockReason s.labels with
    | some reason => simp [hin]
    | none => simp [hin]

theorem applyGuards_fst_eq (snapshots : List LinearIssueSnapshot) :
    (applyGuards existing snapshots).1 = snapshots.filter (passes existing) := by
  rw [applyGuards_fst]
  refine List.filter_congr fun s _ => ?_
  rw [Bool.eq_iff_iff, passes_iff, Bool.and_eq_true, decide_eq_true_eq,
    Option.isNone_iff_eq_none]

theorem countP_concat (before : List LinearIssueSnapshot) (s : LinearIssueSnapshot) :
    (before ++ [s]).countP (passes existing) =
      before.countP (passes existing) + (passes existing s).toNat := by
  rw [List.countP_append, List.countP_singleton]
  cases passes existing s <;> rfl

/-- What a bound leaves after `k` dispatches, and after one more. -/
theorem room_cases (m : Int) (k : ℕ) :
    ((k : Int) < m ∧ ∃ room, m.toNat - k = room + 1 ∧ m.toNat - (k + 1) = room) ∨
      (¬ (k : Int) < m ∧ m.toNat - k = 0 ∧ m.toNat - (k + 1) = 0) := by
  by_cases hroom : (k : Int) < m
  · exact Or.inl ⟨hroom, m.toNat - (k + 1), by omega, rfl⟩
  · exact Or.inr ⟨hroom, by omega, by omega⟩

/-- **The verdicts dispatch as the guard does**: what passes, up to what the bound leaves. -/
theorem dispatchedOf_verdicts (existing : List String) (m : Int)
    (before snapshots : List LinearIssueSnapshot) :
    dispatchedOf (verdicts existing m before snapshots) =
      (snapshots.filter (passes existing)).take
        (m.toNat - before.countP (passes existing)) := by
  induction snapshots generalizing before with
  | nil => simp [verdicts, dispatchedOf]
  | cons s rest ih =>
      have hrest := ih (before ++ [s])
      rw [countP_concat] at hrest
      unfold dispatchedOf at hrest ⊢
      cases hstop : stoppedBy existing s with
      | some reason =>
          have hpass : passes existing s = false := by simp [passes, hstop]
          simp only [hpass, Bool.toNat_false, Nat.add_zero] at hrest
          simp [verdicts, verdict, hstop, hpass, hrest]
      | none =>
          have hpass : passes existing s = true := by simp [passes, hstop]
          simp only [hpass, Bool.toNat_true] at hrest
          rcases room_cases m (before.countP (passes existing)) with
            ⟨hroom, room, hleft, hleft'⟩ | ⟨hroom, hleft, hleft'⟩
          · rw [hleft'] at hrest
            simp [verdicts, verdict, hstop, hpass, hroom, hleft, hrest]
          · rw [hleft', List.take_zero] at hrest
            simp [verdicts, verdict, hstop, hroom, hleft, hrest]

/-- **The verdicts skip as the guard does**, but for the order: it comes to the bound last. -/
theorem skippedOf_verdicts (existing : List String) (m : Int)
    (before snapshots : List LinearIssueSnapshot) :
    (skippedOf (verdicts existing m before snapshots)).Perm
      ((applyGuards existing snapshots).2 ++
        ((snapshots.filter (passes existing)).drop
          (m.toNat - before.countP (passes existing))).map
            fun s => ⟨s.identifier, .bound m⟩) := by
  induction snapshots generalizing before with
  | nil => simp [verdicts, skippedOf, applyGuards]
  | cons s rest ih =>
      have hrest := ih (before ++ [s])
      rw [countP_concat] at hrest
      unfold skippedOf at hrest ⊢
      rw [applyGuards_cons]
      cases hstop : stoppedBy existing s with
      | some reason =>
          have hpass : passes existing s = false := by simp [passes, hstop]
          simp only [hpass, Bool.toNat_false, Nat.add_zero] at hrest
          simpa [verdicts, verdict, hstop, hpass] using hrest
      | none =>
          have hpass : passes existing s = true := by simp [passes, hstop]
          simp only [hpass, Bool.toNat_true] at hrest
          rcases room_cases m (before.countP (passes existing)) with
            ⟨hroom, room, hleft, hleft'⟩ | ⟨hroom, hleft, hleft'⟩
          · rw [hleft'] at hrest
            simpa [verdicts, verdict, hstop, hpass, hroom, hleft] using hrest
          · rw [hleft', List.drop_zero] at hrest
            have hbound : verdict existing m before s = some (.bound m) := by
              simp [verdict, hstop, hroom]
            rw [hleft, List.drop_zero, List.filter_cons_of_pos hpass, List.map_cons, verdicts,
              hbound]
            exact (hrest.cons _).trans List.perm_middle.symm

/-- What the guard returns. -/
theorem selectWithGuard_eq (snapshots : List LinearIssueSnapshot) (existing : List String)
    (h : 1 ≤ m) :
    selectWithGuard snapshots existing m = .ok {
      dispatched := (snapshots.filter (passes existing)).take m.toNat
      skipped := (applyGuards existing snapshots).2 ++
        ((snapshots.filter (passes existing)).drop m.toNat).map
          fun s => ⟨s.identifier, .bound m⟩ } := by
  unfold selectWithGuard
  rw [if_neg (Int.not_lt.2 h), ← applyGuards_fst_eq]

/-- The loop of the guard skips for its first two checks only. -/
theorem applyGuards_no_bound {snapshots : List LinearIssueSnapshot} {skip : Skip}
    (h : skip ∈ (applyGuards existing snapshots).2) (k : Int) : skip.reason ≠ .bound k := by
  induction snapshots with
  | nil => cases h
  | cons s rest ih =>
      rw [applyGuards_cons] at h
      cases hstop : stoppedBy existing s with
      | none =>
          rw [hstop] at h
          exact ih h
      | some reason =>
          rw [hstop] at h
          rcases List.mem_cons.1 h with rfl | h
          · unfold stoppedBy at hstop
            split at hstop
            · cases hstop
              simp
            · obtain ⟨gateReason, -, rfl⟩ := Option.map_eq_some_iff.1 hstop
              simp
          · exact ih h

/-- A skip for the bound comes after as many dispatches as the bound allows. -/
theorem full_of_bound {snapshots : List LinearIssueSnapshot} {outcome : GuardOutcome}
    (h : 1 ≤ m) (hselect : selectWithGuard snapshots existing m = .ok outcome) {skip : Skip}
    (hskip : skip ∈ outcome.skipped) {k : Int} (hreason : skip.reason = .bound k) :
    k = m ∧ (outcome.dispatched.length : Int) = m := by
  rw [selectWithGuard_eq snapshots existing h] at hselect
  cases hselect
  rcases List.mem_append.1 hskip with hskip | hskip
  · exact absurd hreason (applyGuards_no_bound hskip k)
  · obtain ⟨s, hs, rfl⟩ := List.mem_map.1 hskip
    have hlen := List.length_pos_of_mem hs
    rw [List.length_drop] at hlen
    cases hreason
    refine ⟨rfl, ?_⟩
    rw [List.length_take]
    omega

end Verdicts

/-! ## The effects of a pass -/

/-- The call is a claim. -/
def isClaim : Call → Bool
  | .claim _ _ => true
  | _ => false

/-- The call is a dispatch. -/
def isDispatch : Call → Bool
  | .dispatch _ => true
  | _ => false

theorem isDispatch_eq_false {ev : CallEvent} (h : ¬ IsDispatch ev) : isDispatch ev.1 = false := by
  obtain ⟨call, r⟩ := ev
  cases call
  case dispatch c => exact absurd trivial h
  all_goals rfl

theorem isClaim_of_work {i : String} {c : ExecutionContext} {call : Call} (h : IsWork i c call) :
    isClaim call = false := by
  cases call <;> first | rfl | exact h.elim

theorem of_cleanup {c : ExecutionContext} {call : Call} (h : IsCleanup c call) :
    isClaim call = false ∧ isDispatch call = false := by
  cases call <;> first | exact ⟨rfl, rfl⟩ | exact h.elim

section Pass

/-- An execution claims once. -/
theorem execute_atMost_claim (rt : AgentRuntime) (m : Bool) (issue : Issue) :
    AtMost (fun ev : CallEvent => isClaim ev.1) 1 (rt.execute m issue).run := by
  unfold AgentRuntime.execute
  refine atMost_run_bind_left (x := settle _) trivial fun fields => ?_
  obtain ⟨agent, risk, mode, environment⟩ := fields
  refine atMost_run_bind_left (fun r => ⟨rfl, trivial⟩) fun drawn => ?_
  refine atMost_run_bind_right ?_ fun _ => ?_
  · unfold claimIssue
    refine atMost_run_tryCatch_left (atMost_call_ret _) fun e => ?_
    exact only_run_bind (when_only fun r => ⟨rfl, trivial⟩) fun _ => trivial
  · refine only_run_bind (fun r => ⟨rfl, trivial⟩) fun _ => ?_
    refine only_run_tryCatch ?_ fun exc => ?_
    · exact executeBody_only (fun _ => isClaim_of_work) (fun _ => rfl) fun _ _ _ => rfl
    · exact executeFailed_only exc (fun _ h => (of_cleanup h).1) (fun _ => rfl) fun _ _ _ => rfl

/-- An execution dispatches once. -/
theorem execute_atMost_dispatch (rt : AgentRuntime) (m : Bool) (issue : Issue) :
    AtMost (fun ev : CallEvent => isDispatch ev.1) 1 (rt.execute m issue).run := by
  unfold AgentRuntime.execute
  refine atMost_run_bind_left (x := settle _) trivial fun fields => ?_
  obtain ⟨agent, risk, mode, environment⟩ := fields
  refine atMost_run_bind_left (fun r => ⟨rfl, trivial⟩) fun drawn => ?_
  refine atMost_run_bind_left ?_ fun _ => ?_
  · unfold claimIssue
    refine only_run_tryCatch (fun r => ⟨rfl, trivial⟩) fun e => ?_
    exact only_run_bind (when_only fun r => ⟨rfl, trivial⟩) fun _ => trivial
  · refine atMost_run_bind_left (fun r => ⟨rfl, trivial⟩) fun _ => ?_
    refine atMost_run_tryCatch_left ?_ fun exc => ?_
    · unfold executeBody
      refine atMost_run_bind_right ?_ fun result => ?_
      · unfold dispatchIssue
        refine atMost_run_bind_left (when_only fun r => ⟨rfl, trivial⟩) fun _ => ?_
        refine atMost_run_bind_left (x := settle _) trivial fun payload => ?_
        refine atMost_run_bind_left (fun r => ⟨rfl, trivial⟩) fun _ => ?_
        refine atMost_run_bind_right (atMost_call_ret _) fun result => ?_
        exact (afterDispatch_only _ result).mono fun ev => isDispatch_eq_false
      · unfold completeIssue
        refine only_run_bind (when_only fun r => ⟨rfl, trivial⟩) fun _ => ?_
        exact only_run_bind (fun r => ⟨rfl, trivial⟩) fun _ => trivial
    · exact executeFailed_only exc (fun _ h => (of_cleanup h).2) (fun _ => rfl) fun _ _ _ => rfl

variable {P : Call → Bool}

/-- A turn makes no more calls of a kind than its execution, where recoveries and reports are not
of this kind. -/
theorem processIssue_atMost {n : ℕ}
    (hexec : ∀ rt m issue, AtMost (fun ev : CallEvent => P ev.1) n
      (AgentRuntime.execute rt m issue).run)
    (hrecover : ∀ i, P (.recover i) = false)
    (hrecord : ∀ i reason, P (.recordBlocked i reason) = false)
    (orch : RuntimeOrchestrator) (issue : Issue) :
    AtMost (fun ev : CallEvent => P ev.1) n (orch.processIssue issue).run := by
  unfold RuntimeOrchestrator.processIssue
  refine atMost_run_bind_left (fun r => ⟨hrecover _, trivial⟩) fun _ => ?_
  refine atMost_run_tryCatch_left ?_ fun exc => ?_
  · exact atMost_run_bind_right (hexec _ _ _) fun _ => trivial
  · split
    · exact only_run_bind (when_only fun r => ⟨hrecord _ _, trivial⟩) fun _ => trivial
    · split
      · exact only_run_bind (when_only fun r => ⟨hrecord _ _, trivial⟩) fun _ => trivial
      · trivial

theorem processIssues_atMost (orch : RuntimeOrchestrator)
    (hturn : ∀ issue, AtMost (fun ev : CallEvent => P ev.1) 1 (orch.processIssue issue).run)
    (decisions : List SelectionDecision) :
    AtMost (fun ev : CallEvent => P ev.1) decisions.length (orch.processIssues decisions).run := by
  induction decisions with
  | nil => trivial
  | cons d decisions ih =>
      unfold RuntimeOrchestrator.processIssues
      refine (atMost_run_bind (hturn d.issue) fun _ => ?_).mono (Nat.le_of_eq (Nat.add_comm _ _))
      exact atMost_run_bind_right ih fun _ => trivial

/-- **A pass makes no more calls of a kind than it reads issues**, where the turn of an issue makes
one at most. -/
theorem runOnce_bounded {orch : RuntimeOrchestrator}
    (hturn : ∀ issue, AtMost (fun ev : CallEvent => P ev.1) 1 (orch.processIssue issue).run)
    (hread : P .readIssues = false) (hrecord : ∀ i reason, P (.recordBlocked i reason) = false)
    {tr : List CallEvent} {q : Prog Call Call.Resp (Except Exc (List OrchestratorRunResult))}
    (h : Reach orch.runOnce.run tr q) {read : List LinearIssueSnapshot}
    (hanswer : ∀ snapshots, (⟨.readIssues, .ok snapshots⟩ : CallEvent) ∈ tr → snapshots = read) :
    tr.countP (fun ev => P ev.1) ≤ read.length := by
  have hno : ∀ {ev : CallEvent}, IsRecord ev.1 → ¬ P ev.1 = true := by
    intro ev hev
    obtain ⟨call, r⟩ := ev
    cases call
    case recordBlocked i reason => exact Bool.eq_false_iff.1 (hrecord i reason)
    all_goals exact hev.elim
  cases tr with
  | nil => exact Nat.zero_le _
  | cons first tr =>
      obtain ⟨later, o, hreturns⟩ := h.extend
      have hgrow : (first :: tr).countP (fun ev => P ev.1) ≤
          ((first :: tr) ++ later).countP fun ev => P ev.1 :=
        (List.sublist_append_left _ later).countP_le
      refine hgrow.trans ?_
      rcases runOnce_returns hreturns with ⟨e, htr⟩ | ⟨snapshots, records, turns, htr, hrecords,
        hturns⟩
      · rw [htr, List.countP_singleton, hread]
        exact Nat.zero_le _
      · have hfirst : first = ⟨.readIssues, .ok snapshots⟩ := (List.cons.inj htr).1
        obtain rfl := hanswer snapshots (hfirst ▸ List.mem_cons_self)
        have hrest : (records ++ turns).countP (fun ev => P ev.1) =
            turns.countP fun ev => P ev.1 := by
          rw [List.countP_append, List.countP_eq_zero.2 fun ev hev => hno (hrecords ev hev),
            Nat.zero_add]
        rw [htr, List.countP_cons_of_neg (p := fun ev : CallEvent => P ev.1)
          (Bool.eq_false_iff.1 hread), hrest]
        rcases hturns with rfl | ⟨-, o', hturns⟩
        · exact Nat.zero_le _
        · refine ((processIssues_atMost orch hturn _).countP_le hturns).trans ?_
          unfold decisionsOf
          exact (List.length_filter_le _ _).trans (Nat.le_of_eq (List.length_map _))

end Pass

/-! ## Down to the board -/

/-- The call is a `start`. -/
def isStart : KanbanCall → Bool
  | .start _ => true
  | _ => false

/-- The call is a `create_task`. -/
def isCreate : BoardCall → Bool
  | .createTask _ => true
  | .listTasks => false

/-- The calls to the board a call of the adapter is made of: those of `start`. -/
def boardCalls : KanbanEvent → List BoardEvent → Prop
  | ⟨.start c, _⟩, calls => ∃ q, Reach (start c).run calls q
  | _, calls => calls = []

/-- The calls to the board a call of the pass is made of: a dispatch runs the adapter. -/
def dispatchCalls (p : KanbanPolling) : CallEvent → List BoardEvent → Prop
  | ⟨.dispatch c, _⟩, calls =>
      ∃ fuel tr q, Reach (adapterCall p fuel c).run tr q ∧ Expands boardCalls tr calls
  | _, calls => calls = []

/-- `start` creates one card. -/
theorem start_atMost_create (c : ExecutionContext) :
    AtMost (fun ev : BoardEvent => isCreate ev.1) 1 (start c).run := by
  unfold start
  cases requiresHuman c with
  | true => trivial
  | false =>
      refine atMost_run_bind_left (x := listTasks) (fun r => ⟨rfl, trivial⟩) fun tasks => ?_
      cases truthy ((matchExistingCards tasks [c.linearIssueId]).lookup c.linearIssueId) with
      | some existing => trivial
      | none => exact atMost_call_ret _

theorem pollLoop_no_start (p : KanbanPolling) (c : ExecutionContext) (taskId : String)
    (deadline : ℚ) (fuel : ℕ) (snapshot : KanbanTaskSnapshot) (lastStatus : String)
    (events : List (String × RawPayload)) : Only (fun ev : KanbanEvent => isStart ev.1 = false)
      (pollLoop p c taskId deadline fuel snapshot lastStatus events).run := by
  induction fuel generalizing snapshot lastStatus events with
  | zero => trivial
  | succ fuel ih =>
      unfold pollLoop
      split
      · trivial
      split
      · trivial
      refine only_run_bind (fun r => ⟨rfl, trivial⟩) fun now => ?_
      split
      · trivial
      refine only_run_bind (fun r => ⟨rfl, trivial⟩) fun _ => ?_
      refine only_run_bind (fun r => ⟨rfl, trivial⟩) fun next => ?_
      split
      · exact ih _ _ _
      · exact ih _ _ _

/-- The adapter starts once. -/
theorem adapterCall_atMost_start (p : KanbanPolling) (fuel : ℕ) (c : ExecutionContext) :
    AtMost (fun ev : KanbanEvent => isStart ev.1) 1 (adapterCall p fuel c).run := by
  unfold adapterCall
  refine atMost_run_bind_right (atMost_call_ret _) fun initial => ?_
  refine only_run_bind ?_ fun snapshot => ?_
  · cases initial with
    | inl taskId => exact fun r => ⟨rfl, trivial⟩
    | inr snapshot => trivial
  refine only_run_bind (fun r => ⟨rfl, trivial⟩) fun now => ?_
  refine only_run_bind (pollLoop_no_start _ _ _ _ _ _ _ _) fun ended => ?_
  cases ended with
  | none => trivial
  | some ended => trivial

/-- A dispatch creates one card, and no other call creates one. -/
theorem dispatchCalls_countP_le (p : KanbanPolling) (ev : CallEvent) (calls : List BoardEvent)
    (h : dispatchCalls p ev calls) :
    calls.countP (fun e => isCreate e.1) ≤ (isDispatch ev.1).toNat := by
  obtain ⟨call, r⟩ := ev
  cases call
  case dispatch c =>
    obtain ⟨fuel, tr, q, hreach, hcalls⟩ := h
    refine le_trans ?_ ((adapterCall_atMost_start p fuel c).countP_le hreach)
    refine hcalls.countP_le fun e part hpart => ?_
    obtain ⟨call, answer⟩ := e
    cases call
    case start c' =>
      obtain ⟨q', hstart⟩ := hpart
      exact (start_atMost_create c').countP_le hstart
    all_goals
      rw [show part = [] from hpart]
      exact Nat.zero_le _
  all_goals
    rw [show calls = [] from h]
    exact Nat.zero_le _

/-! ## The tick -/

/-- What the guard read lets a tick start from. -/
theorem guardedReadIssues_bounded (issues : List LinearIssueSnapshot) (tasks : List BoardTask)
    {m : Int} (h : 1 ≤ m) : ∃ read, guardedReadIssues issues tasks m = .ok read ∧
      (read.length : Int) ≤ m := by
  unfold guardedReadIssues
  by_cases hnil : todoIssues issues = []
  · rw [if_pos hnil]
    exact ⟨[], rfl, by simp; omega⟩
  · simp only [if_neg hnil, selectWithGuard_eq _ _ h]
    refine ⟨_, rfl, ?_⟩
    rw [List.length_take]
    omega

/-- **A tick keeps to its bound.** Over a guarded read, a pass makes no more claims than the bound
allows, nor do its dispatches create more cards. -/
theorem tick_bounded (issues : List LinearIssueSnapshot) (tasks : List BoardTask) {m : Int}
    (hm : 1 ≤ m) {orch : RuntimeOrchestrator} {tr : List CallEvent}
    {q : Prog Call Call.Resp (Except Exc (List OrchestratorRunResult))}
    (h : Reach orch.runOnce.run tr q)
    (hread : ∀ read, (⟨.readIssues, .ok read⟩ : CallEvent) ∈ tr →
      guardedReadIssues issues tasks m = .ok read)
    {p : KanbanPolling} {calls : List BoardEvent} (hcalls : Expands (dispatchCalls p) tr calls) :
    (tr.countP (fun ev => isClaim ev.1) : Int) ≤ m ∧
      (calls.countP (fun ev => isCreate ev.1) : Int) ≤ m := by
  obtain ⟨read, hok, hlen⟩ := guardedReadIssues_bounded issues tasks hm
  have hsame : ∀ snapshots, (⟨.readIssues, .ok snapshots⟩ : CallEvent) ∈ tr → snapshots = read :=
    fun snapshots hmem => Except.ok.inj ((hread snapshots hmem).symm.trans hok)
  have hclaims : tr.countP (fun ev => isClaim ev.1) ≤ read.length :=
    runOnce_bounded (processIssue_atMost execute_atMost_claim (fun _ => rfl) (fun _ _ => rfl) orch)
      rfl (fun _ _ => rfl) h hsame
  have hdispatches : tr.countP (fun ev => isDispatch ev.1) ≤ read.length :=
    runOnce_bounded
      (processIssue_atMost execute_atMost_dispatch (fun _ => rfl) (fun _ _ => rfl) orch)
      rfl (fun _ _ => rfl) h hsame
  have hcreates : calls.countP (fun ev => isCreate ev.1) ≤
      tr.countP fun ev => isDispatch ev.1 :=
    hcalls.countP_le (dispatchCalls_countP_le p)
  omega

/-- **The guard partitions its snapshots and bounds the tick.** It dispatches the first of the
snapshots that pass, as many as the bound allows. What it dispatches and what it skips are the
verdicts on the snapshots, one for each, by the first guard that stops it; for the bound none is
skipped before as many are dispatched. A larger bound only adds to what is dispatched. So a tick
claims and creates no more often than the bound says. -/
theorem guard_bounds_tick (snapshots : List LinearIssueSnapshot) (existing : List String)
    {m m' : Int} (hm : 1 ≤ m) (hle : m ≤ m') :
    ∃ outcome outcome', selectWithGuard snapshots existing m = .ok outcome ∧
      selectWithGuard snapshots existing m' = .ok outcome' ∧
      outcome.dispatched = (snapshots.filter (passes existing)).take m.toNat ∧
      (outcome.dispatched.length : Int) = min m (snapshots.countP (passes existing)) ∧
      (verdicts existing m [] snapshots).map Prod.fst = snapshots ∧
      outcome.dispatched = dispatchedOf (verdicts existing m [] snapshots) ∧
      outcome.skipped.Perm (skippedOf (verdicts existing m [] snapshots)) ∧
      (∀ skip ∈ outcome.skipped, ∀ k, skip.reason = .bound k →
        k = m ∧ (outcome.dispatched.length : Int) = m) ∧
      outcome.dispatched <+: outcome'.dispatched ∧
      ∀ (issues : List LinearIssueSnapshot) (tasks : List BoardTask) (orch : RuntimeOrchestrator)
        (p : KanbanPolling) (tr : List CallEvent)
        (q : Prog Call Call.Resp (Except Exc (List OrchestratorRunResult)))
        (calls : List BoardEvent), Reach orch.runOnce.run tr q →
        (∀ read, (⟨.readIssues, .ok read⟩ : CallEvent) ∈ tr →
          guardedReadIssues issues tasks m = .ok read) →
        Expands (dispatchCalls p) tr calls →
        (tr.countP (fun ev => isClaim ev.1) : Int) ≤ m ∧
          (calls.countP (fun ev => isCreate ev.1) : Int) ≤ m := by
  have hselect := selectWithGuard_eq snapshots existing hm
  have hskips := skippedOf_verdicts existing m [] snapshots
  have hdispatched := dispatchedOf_verdicts existing m [] snapshots
  rw [List.countP_nil, Nat.sub_zero] at hskips hdispatched
  refine ⟨_, _, hselect, selectWithGuard_eq snapshots existing (hm.trans hle), rfl, ?_,
    map_fst_verdicts _ _, hdispatched.symm, hskips.symm,
    fun skip hskip k => full_of_bound hm hselect hskip, ?_,
    fun issues tasks orch p tr q calls h hread hcalls =>
      tick_bounded issues tasks hm h hread hcalls⟩
  · rw [List.length_take, List.countP_eq_length_filter]
    omega
  · have hgrow : m.toNat ≤ m'.toNat := by omega
    exact List.take_prefix_take_left hgrow

theorem nodup_plainLabels :
    ["agent:qa", "risk:low", "execution:auto", "env:local"].Nodup := by decide

/-- A snapshot the guard lets through. -/
def plainSnapshot : LinearIssueSnapshot :=
  ⟨"LOL-1", "Todo", ["agent:qa", "risk:low", "execution:auto", "env:local"], nodup_plainLabels⟩

/-- Of an issue read twice, one is dispatched and the other skipped for the bound. -/
theorem guard_bounds_tick_repeated : ∃ outcome,
    selectWithGuard [plainSnapshot, plainSnapshot] ["LOL-2"] 1 = .ok outcome ∧
      outcome.dispatched = [plainSnapshot] ∧
      outcome.skipped.Perm [⟨"LOL-1", .bound 1⟩] := by
  obtain ⟨outcome, _, hselect, -, -, -, -, hdispatched, hskipped, -⟩ :=
    guard_bounds_tick [plainSnapshot, plainSnapshot] ["LOL-2"] (Int.le_refl 1)
      (by decide : (1 : Int) ≤ 2)
  have hverdicts : verdicts ["LOL-2"] 1 [] [plainSnapshot, plainSnapshot] =
      [(plainSnapshot, none), (plainSnapshot, some (.bound 1))] := by decide
  rw [hverdicts] at hdispatched hskipped
  exact ⟨outcome, hselect, hdispatched, hskipped⟩

end HermesRuntime
