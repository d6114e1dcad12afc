import HermesRuntime.OrchestratorProof
import HermesRuntime.Script
import HermesRuntime.WorldProof

/-!
# Two passes over one backlog

A pass dispatches an issue once. Two passes may both dispatch it, one after the other: the
second decides on what it read at its start, and the lock keeps out only what overlaps. Both
have read before either moved the issue, and the run claimed first has ended when the second
is claimed.

* `dispatch_preceded`, `count_dispatches_le_one` — the dispatches of a pass.
* `no_overlapping_dispatch` — the dispatches of two passes.
-/

namespace HermesRuntime

open Effects Prog Proc Semantics

/-! ## What leads to a dispatch -/

/-- Every dispatch comes after its claim, and where there is a callback after the move of its
issue to `In Progress`. -/
def DispatchesFollow (m : Bool) (tr : List CallEvent) : Prop :=
  ∀ pre post c r, tr = pre ++ ⟨.dispatch c, r⟩ :: post →
    (∃ ttl, (⟨.claim c ttl, .ok ()⟩ : CallEvent) ∈ pre) ∧
      (m = true → (⟨.moveStatus c.linearIssueId "In Progress", .ok ()⟩ : CallEvent) ∈ pre)

theorem follow_of_none {m : Bool} {tr : List CallEvent} (h : ∀ ev ∈ tr, ¬ IsDispatch ev) :
    DispatchesFollow m tr := by
  intro pre post c r heq
  exact absurd trivial (h ⟨.dispatch c, r⟩ (by simp [heq]))

theorem follow_append {m : Bool} {tr tr' : List CallEvent} (h : DispatchesFollow m tr)
    (h' : DispatchesFollow m tr') : DispatchesFollow m (tr ++ tr') := by
  intro pre post c r heq
  rcases List.append_eq_append_iff.1 heq with ⟨left, rfl, htr'⟩ | ⟨left, htr, hleft⟩
  · obtain ⟨⟨ttl, hclaim⟩, hmove⟩ := h' left post c r htr'
    exact ⟨⟨ttl, List.mem_append_right _ hclaim⟩, fun hm => List.mem_append_right _ (hmove hm)⟩
  · cases left with
    | nil =>
        obtain ⟨⟨ttl, hclaim⟩, -⟩ := h' [] post c r hleft.symm
        cases hclaim
    | cons ev left =>
        injection hleft with hev hleft
        subst hev
        exact h pre left c r htr

theorem follow_of_append {m : Bool} {tr tr' : List CallEvent} (h : DispatchesFollow m (tr ++ tr')) :
    DispatchesFollow m tr := by
  intro pre post c r heq
  exact h pre (post ++ tr') c r (by simp [heq])

/-- A trace with one dispatch is cut there only. -/
theorem cut_unique {before tail pre post : List CallEvent} {ev ev' : CallEvent}
    (h : before ++ ev :: tail = pre ++ ev' :: post) (hev' : IsDispatch ev')
    (hbefore : ∀ e ∈ before, ¬ IsDispatch e) (htail : ∀ e ∈ tail, ¬ IsDispatch e) :
    pre = before ∧ ev' = ev := by
  rcases List.append_eq_append_iff.1 h with ⟨left, rfl, hleft⟩ | ⟨left, rfl, hleft⟩
  · cases left with
    | nil =>
        injection hleft with hev
        exact ⟨by simp, hev.symm⟩
    | cons e left =>
        injection hleft with _ hleft
        exact absurd hev' (htail ev' (by simp [hleft]))
  · cases left with
    | nil =>
        injection hleft with hev
        exact ⟨by simp, hev⟩
    | cons e left =>
        injection hleft with hev
        exact absurd hev' (hbefore ev' (by simp [hev]))

theorem execute_follow {rt : AgentRuntime} {m : Bool} {issue : Issue} {tr : List CallEvent}
    {o : Except Exc ExecutionContext} (h : Returns (rt.execute m issue).run tr o) :
    DispatchesFollow m tr := by
  rcases execute_dispatch h with hnone |
    ⟨before, c, r, tail, rfl, hid, hclaim, hmoved, hbefore, htail⟩
  · exact follow_of_none hnone
  intro pre post c' r' heq
  obtain ⟨rfl, hev⟩ := cut_unique heq trivial hbefore htail
  cases hev
  refine ⟨hclaim, fun hm => hmoved _ ?_⟩
  rw [hid, hm]
  exact List.mem_singleton_self _

/-! ## The dispatches of a pass -/

theorem processIssue_follow {orch : RuntimeOrchestrator} {issue : Issue} {tr : List CallEvent}
    {o : Except Exc OrchestratorRunResult} (h : Returns (orch.processIssue issue).run tr o) :
    DispatchesFollow orch.hasMove tr := by
  rcases processIssue_returns h with ⟨e, rfl, -⟩ | ⟨b, exec, o', tail, rfl, hexec, htail⟩
  · exact follow_of_none fun ev hev => by rw [List.mem_singleton.1 hev]; exact id
  · have hrecover : ∀ ev ∈ [(⟨.recover issue.identifier, .ok b⟩ : CallEvent)],
        ¬ IsDispatch ev := fun ev hev => by rw [List.mem_singleton.1 hev]; exact id
    have hrecord : ∀ ev ∈ tail, ¬ IsDispatch ev := by
      intro ev hev hdisp
      obtain ⟨c, r, rfl⟩ := exists_of_isDispatch hdisp
      exact (htail _ hev).1
    exact follow_append (follow_of_none hrecover)
      (follow_append (execute_follow hexec) (follow_of_none hrecord))

theorem processIssues_follow {orch : RuntimeOrchestrator} {decisions : List SelectionDecision}
    {tr : List CallEvent} {o : Except Exc (List OrchestratorRunResult)}
    (h : Returns (orch.processIssues decisions).run tr o) : DispatchesFollow orch.hasMove tr := by
  induction decisions generalizing tr o with
  | nil =>
      obtain ⟨rfl, -⟩ := returns_pure.1 h
      exact follow_of_none (List.forall_mem_nil _)
  | cons d decisions ih =>
      obtain ⟨turn, rest, o', rfl, hturn, hrest⟩ := processIssues_cons h
      refine follow_append (processIssue_follow hturn) ?_
      rcases hrest with rfl | ⟨_, o'', -, hrest⟩
      · exact follow_of_none (List.forall_mem_nil _)
      · exact ih hrest

theorem not_dispatch_of_record {tr : List CallEvent} (h : ∀ ev ∈ tr, IsRecord ev.1) :
    ∀ ev ∈ tr, ¬ IsDispatch ev := by
  intro ev hev hdisp
  obtain ⟨c, r, rfl⟩ := exists_of_isDispatch hdisp
  exact h _ hev

/-- **Every dispatch of a pass comes after its claim and its move.** -/
theorem dispatch_preceded {orch : RuntimeOrchestrator} {tr : List CallEvent}
    {q : Prog Call Call.Resp (Except Exc (List OrchestratorRunResult))}
    (h : Reach orch.runOnce.run tr q) : DispatchesFollow orch.hasMove tr := by
  obtain ⟨later, o, hreturns⟩ := h.extend
  refine @follow_of_append _ tr later ?_
  rcases runOnce_returns hreturns with ⟨e, heq⟩ | ⟨snapshots, records, turns, heq, hrecords, hturns⟩
  · rw [heq]
    exact follow_of_none fun ev hev => by rw [List.mem_singleton.1 hev]; exact id
  · rw [heq, ← List.singleton_append]
    refine follow_append (follow_of_none fun ev hev => ?_)
      (follow_append (follow_of_none (not_dispatch_of_record hrecords)) ?_)
    · rw [List.mem_singleton.1 hev]
      exact id
    · rcases hturns with rfl | ⟨-, o', hturns⟩
      · exact follow_of_none (List.forall_mem_nil _)
      · exact processIssues_follow hturns

/-- The event is a dispatch of issue `i`. -/
def isDispatchOf (i : String) : CallEvent → Bool
  | ⟨.dispatch c, _⟩ => c.linearIssueId = i
  | _ => false

theorem isDispatchOf_iff {i : String} {ev : CallEvent} :
    isDispatchOf i ev = true ↔ IsDispatch ev ∧ IsTurn i ev.1 := by
  obtain ⟨call, r⟩ := ev
  cases call
  case dispatch c =>
    exact decide_eq_true_iff.trans ⟨fun h => ⟨trivial, h⟩, fun h => h.2⟩
  all_goals exact iff_of_false nofun fun h => h.1

/-- How often issue `i` is handed to dispatch. -/
def dispatches (i : String) (tr : List CallEvent) : Nat := tr.countP (isDispatchOf i)

theorem dispatches_append (i : String) (tr tr' : List CallEvent) :
    dispatches i (tr ++ tr') = dispatches i tr + dispatches i tr' := List.countP_append

theorem dispatches_of_none {i : String} {tr : List CallEvent} (h : ∀ ev ∈ tr, ¬ IsDispatch ev) :
    dispatches i tr = 0 :=
  List.countP_eq_zero.2 fun ev hev hd => h ev hev (isDispatchOf_iff.1 hd).1

theorem execute_dispatches_le {rt : AgentRuntime} {m : Bool} {issue : Issue}
    {tr : List CallEvent} {o : Except Exc ExecutionContext}
    (h : Returns (rt.execute m issue).run tr o) (i : String) : dispatches i tr ≤ 1 := by
  rcases execute_dispatch h with hnone |
    ⟨before, c, r, tail, rfl, -, -, -, hbefore, htail⟩
  · rw [dispatches_of_none hnone]
    exact Nat.zero_le 1
  · rw [List.append_cons, dispatches_append, dispatches_append, dispatches_of_none hbefore,
      dispatches_of_none htail]
    have hone : dispatches i [(⟨.dispatch c, r⟩ : CallEvent)] ≤ 1 := List.countP_le_length
    omega

/-- A turn dispatches its own issue, once. -/
theorem processIssue_dispatches_le {orch : RuntimeOrchestrator} {issue : Issue}
    {tr : List CallEvent} {o : Except Exc OrchestratorRunResult}
    (h : Returns (orch.processIssue issue).run tr o) (i : String) :
    dispatches i tr ≤ [issue.identifier].count i := by
  by_cases hi : issue.identifier = i
  · rw [hi, List.count_singleton_self]
    rcases processIssue_returns h with ⟨e, rfl, -⟩ | ⟨b, exec, o', tail, rfl, hexec, htail⟩
    · exact List.countP_le_length
    · have hrecover : dispatches i [(⟨.recover issue.identifier, .ok b⟩ : CallEvent)] = 0 := rfl
      have hrecord : dispatches i tail = 0 :=
        dispatches_of_none (not_dispatch_of_record fun ev hev => (htail ev hev).1)
      have hone := execute_dispatches_le hexec i
      rw [← List.singleton_append, dispatches_append, dispatches_append]
      omega
  · refine (List.countP_eq_zero.2 fun ev hev hd => hi ?_).le.trans (Nat.zero_le _)
    obtain ⟨hdisp, hturn⟩ := isDispatchOf_iff.1 hd
    have hturn' := processIssue_turn h ev hev
    obtain ⟨call, r⟩ := ev
    cases call
    case dispatch c => exact hturn'.symm.trans hturn
    all_goals exact hdisp.elim

theorem processIssues_dispatches_le {orch : RuntimeOrchestrator}
    {decisions : List SelectionDecision} {tr : List CallEvent}
    {o : Except Exc (List OrchestratorRunResult)}
    (h : Returns (orch.processIssues decisions).run tr o) (i : String) :
    dispatches i tr ≤ (decisions.map (·.issue.identifier)).count i := by
  induction decisions generalizing tr o with
  | nil =>
      obtain ⟨rfl, -⟩ := returns_pure.1 h
      exact Nat.le_refl 0
  | cons d decisions ih =>
      obtain ⟨turn, rest, o', rfl, hturn, hrest⟩ := processIssues_cons h
      have hfirst := processIssue_dispatches_le hturn i
      have hothers : dispatches i rest ≤ (decisions.map (·.issue.identifier)).count i := by
        rcases hrest with rfl | ⟨_, o'', -, hrest⟩
        · exact Nat.zero_le _
        · exact ih hrest
      rw [dispatches_append, List.map_cons, ← List.singleton_append, List.count_append]
      omega

/-- **A pass dispatches an issue at most once**, and only one that it read as `Todo`. -/
theorem count_dispatches_le_one {orch : RuntimeOrchestrator} {tr : List CallEvent}
    {q : Prog Call Call.Resp (Except Exc (List OrchestratorRunResult))}
    (h : Reach orch.runOnce.run tr q)
    (hnodup : ∀ snapshots, (⟨.readIssues, .ok snapshots⟩ : CallEvent) ∈ tr →
      (snapshots.map (·.identifier)).Nodup) (i : String) :
    dispatches i tr ≤ 1 ∧ (0 < dispatches i tr → ∃ snapshots,
      (⟨.readIssues, .ok snapshots⟩ : CallEvent) ∈ tr ∧
      ∃ s ∈ snapshots, s.identifier = i ∧ s.status = "Todo") := by
  obtain ⟨later, o, hreturns⟩ := h.extend
  rcases runOnce_returns hreturns with ⟨e, heq⟩ | ⟨snapshots, records, turns, heq, hrecords, hturns⟩
  · have hzero : dispatches i (tr ++ later) = 0 := by rw [heq]; rfl
    rw [dispatches_append] at hzero
    exact ⟨by omega, fun hpos => by omega⟩
  cases tr with
  | nil => exact ⟨Nat.zero_le 1, fun hpos => absurd hpos (Nat.lt_irrefl 0)⟩
  | cons ev tr =>
      rw [List.cons_append] at heq
      injection heq with hev heq
      subst hev
      have hread : (⟨.readIssues, .ok snapshots⟩ : CallEvent) ∈
          (⟨.readIssues, .ok snapshots⟩ : CallEvent) :: tr := List.mem_cons_self
      -- What has been dispatched so far is dispatched in the turns of the whole pass.
      have hle : dispatches i (⟨.readIssues, .ok snapshots⟩ :: tr) ≤ dispatches i turns := by
        have hfirst : dispatches i [(⟨.readIssues, .ok snapshots⟩ : CallEvent)] = 0 := rfl
        have hwhole : dispatches i (tr ++ later) = dispatches i turns := by
          rw [heq, dispatches_append, dispatches_of_none (not_dispatch_of_record hrecords),
            Nat.zero_add]
        rw [← List.singleton_append, dispatches_append]
        rw [dispatches_append] at hwhole
        omega
      rcases hturns with rfl | ⟨-, o', hturns⟩
      · have hzero : dispatches i [] = 0 := rfl
        exact ⟨by omega, fun hpos => by omega⟩
      have hcount := processIssues_dispatches_le hturns i
      have hone := List.nodup_iff_count_le_one.1 (nodup_decisionsOf (hnodup snapshots hread)) i
      refine ⟨by omega, fun hpos => ⟨snapshots, hread, ?_⟩⟩
      have hmem : i ∈ (decisionsOf snapshots).map (·.issue.identifier) :=
        List.count_pos_iff.1 (by omega)
      obtain ⟨d, hd, hid⟩ := List.mem_map.1 hmem
      obtain ⟨s, hs, rfl, haction⟩ := mem_decisionsOf.1 hd
      rw [select_issue] at hid
      obtain ⟨fields, hclass⟩ := action_eligible_iff.1 haction
      exact ⟨s, hs, hid, status_of_classify hclass⟩

/-! ## Two passes -/

section Passes

variable {π : Type} [DecidableEq π] {net : Net} {α : Type}

/-- Issue `i` is not `Todo` in Linear. -/
def NotTodo (i : String) (w : World π) : Prop :=
  ∀ s ∈ w.linear.issues, s.identifier = i → s.status ≠ "Todo"

/-- A move that goes through has moved the issue. -/
theorem notTodo_of_move {p : π} {i s : String} {m m' : SysConfig π α} (hs : s ≠ "Todo")
    (h : (system net).Step m (.call p ⟨.moveStatus i s, .ok ()⟩) m') : NotTodo i m'.world := by
  cases h with
  | call hp ha =>
      rcases ha with rfl | ⟨-, hne⟩
      · intro t' ht' hid
        obtain ⟨t, -, rfl⟩ := List.mem_map.1 ht'
        rw [identifier_setStatus] at hid
        unfold LinearIssueSnapshot.setStatus
        rw [if_pos hid]
        exact hs
      · exact absurd rfl hne

/-- An issue that nobody moves to `Todo` does not get there. -/
theorem run_notTodo {i : String} {m m' : SysConfig π α} {ls : List (SysLabel π)}
    (h : (system net).Run m ls m') (hls : ∀ l ∈ ls, ¬ MovesTo i "Todo" l)
    (hm : NotTodo i m.world) : NotTodo i m'.world := by
  refine h.invariant (fun m => NotTodo i m.world) hm fun {m₁ l m₂} hl hstep hm₁ => ?_
  rcases step_linear hstep with heq | ⟨j, s, hmoves, heq⟩
  · intro t ht
    rw [heq] at ht
    exact hm₁ t ht
  · intro t' ht' hid
    rw [heq] at ht'
    obtain ⟨t, ht, rfl⟩ := List.mem_map.1 ht'
    rw [identifier_setStatus] at hid
    unfold LinearIssueSnapshot.setStatus
    by_cases hj : t.identifier = j
    · rw [if_pos hj]
      intro htodo
      obtain rfl : s = "Todo" := htodo
      exact hls l hl (hid ▸ hj ▸ hmoves)
    · rw [if_neg hj]
      exact hm₁ t ht hid

omit [DecidableEq π] in
/-- A pass moves no issue to `Todo`. -/
theorem pass_not_todo {orch : RuntimeOrchestrator} {tr : List CallEvent}
    {q : Prog Call Call.Resp (Except Exc (List OrchestratorRunResult))}
    (h : Reach orch.runOnce.run tr q) (p : π) (i : String) :
    ∀ ev ∈ tr, ¬ MovesTo i "Todo" (.call p ev : SysLabel π) := by
  obtain ⟨later, o, hreturns⟩ := h.extend
  intro ev hev hmoves
  have hmem : ev ∈ tr ++ later := List.mem_append_left _ hev
  obtain ⟨call, r⟩ := ev
  cases call
  case moveStatus j s =>
    obtain ⟨-, rfl⟩ : j = i ∧ s = "Todo" := hmoves
    rcases runOnce_mem hreturns hmem with heq | hrecord | ⟨snapshots, -, d, -, -, hs⟩
    · cases heq
    · exact hrecord
    · simp at hs
  all_goals exact hmoves

/-- Before `p` moves issue `i` to `In Progress` or dispatches it, `q` has read the issues. -/
def HadRead (q p : π) (i : String) (ls : List (SysLabel π)) : Prop :=
  ∀ pre post ev, ls = pre ++ .call p ev :: post →
    ev = ⟨.moveStatus i "In Progress", .ok ()⟩ ∨ isDispatchOf i ev = true →
      ∃ snapshots, .call q ⟨.readIssues, .ok snapshots⟩ ∈ pre

/-- The run of `c₁` has ended when `q` claims the run of `c₂`. -/
def EndedWhenClaimed (net : Net) (m₀ : SysConfig π α) (ls : List (SysLabel π))
    (c₁ : ExecutionContext) (q : π) (c₂ : ExecutionContext) : Prop :=
  ∃ pre post ttl x, ls = pre ++ .call q ⟨.claim c₂ ttl, .ok ()⟩ :: post ∧
    (system net).Run m₀ pre x ∧ x.world.db.Ended c₁.runId

/-- A run that was claimed before has ended when another run of its issue is claimed. -/
theorem ended_when_claimed {p q : π} {m₀ m : SysConfig π α} {ls ls' post : List (SysLabel π)}
    (hc : m₀.world.db.Consistent) {c₁ c₂ : ExecutionContext} {ttl₁ ttl₂ : Int}
    (hissue : c₁.linearIssueId = c₂.linearIssueId)
    (hrun : (system net).Run m₀
      (ls ++ .call p ⟨.claim c₁ ttl₁, .ok ()⟩ :: (ls' ++ .call q ⟨.claim c₂ ttl₂, .ok ()⟩ :: post))
      m) : EndedWhenClaimed net m₀ (ls ++ .call p ⟨.claim c₁ ttl₁, .ok ()⟩ ::
        (ls' ++ .call q ⟨.claim c₂ ttl₂, .ok ()⟩ :: post)) c₁ q c₂ := by
  obtain ⟨x₁, y₁, hx₁, hclaim₁, hrest⟩ := hrun.split_at
  obtain ⟨x₂, y₂, hx₂, hclaim₂, -⟩ := hrest.split_at
  have hcy₁ := step_consistent hclaim₁ (run_consistent hx₁ hc)
  refine ⟨ls ++ .call p ⟨.claim c₁ ttl₁, .ok ()⟩ :: ls', post, ttl₂, x₂, by simp,
    hx₁.trans (.head hclaim₁ hx₂), ended_of_not_holds (run_consistent hx₂ hcy₁)
      (run_hasRun hx₂ hcy₁ (i := c₁.linearIssueId) ?_) ?_⟩
  · cases hclaim₁ with
    | call hp hans =>
        obtain ⟨d, -, hans, -⟩ := hans
        exact hasRun_of_claim hans
  · cases hclaim₂ with
    | call hp hans =>
        obtain ⟨d, -, hans, -⟩ := hans
        rw [hissue]
        exact not_holds_before_claim hans c₁.runId

/-- Of two claimed runs of an issue, one has ended when the other is claimed. -/
theorem claims_apart {p q : π} (hpq : p ≠ q) {m₀ m : SysConfig π α} {ls : List (SysLabel π)}
    (hc : m₀.world.db.Consistent) (hrun : (system net).Run m₀ ls m) {c₁ c₂ : ExecutionContext}
    {ttl₁ ttl₂ : Int} (hissue : c₁.linearIssueId = c₂.linearIssueId)
    (h₁ : .call p ⟨.claim c₁ ttl₁, .ok ()⟩ ∈ ls) (h₂ : .call q ⟨.claim c₂ ttl₂, .ok ()⟩ ∈ ls) :
    EndedWhenClaimed net m₀ ls c₁ q c₂ ∨ EndedWhenClaimed net m₀ ls c₂ p c₁ := by
  obtain ⟨a, b, rfl⟩ := List.append_of_mem h₁
  rcases List.mem_append.1 h₂ with h₂ | h₂
  · right
    obtain ⟨a', b', rfl⟩ := List.append_of_mem h₂
    rw [List.append_assoc, List.cons_append] at hrun ⊢
    exact ended_when_claimed hc hissue.symm hrun
  · rcases List.mem_cons.1 h₂ with heq | h₂
    · cases heq
      exact absurd rfl hpq
    · left
      obtain ⟨a', b', rfl⟩ := List.append_of_mem h₂
      exact ended_when_claimed hc hissue hrun

/-- A pass that dispatches an issue has read the issues before the other moves the issue. -/
theorem hadRead_of_dispatch {p q : π} {orch₁ orch₂ : RuntimeOrchestrator}
    (hm : orch₁.hasMove = true) {m₀ m : SysConfig π (Except Exc (List OrchestratorRunResult))}
    {ls : List (SysLabel π)} (hp : m₀.progs p = orch₁.runOnce.run)
    (hq : m₀.progs q = orch₂.runOnce.run) (hrun : (system net).Run m₀ ls m) {i : String}
    (htodo : ∀ l ∈ ls, ¬ MovesTo i "Todo" l) (hdisp : 0 < dispatches i (eventsOf q ls)) :
    HadRead q p i ls := by
  have hreach := hrun.reach q
  rw [hq] at hreach
  obtain ⟨-, hread⟩ := count_dispatches_le_one hreach
    (fun snapshots hread => nodup_of_read hrun (mem_eventsOf.1 hread)) i
  obtain ⟨snapshots, hread, s, hs, hid, hstatus⟩ := hread hdisp
  -- The move comes after the read: what is read after it is not `Todo` any more.
  have hmoved : ∀ pre post, ls = pre ++ .call p ⟨.moveStatus i "In Progress", .ok ()⟩ :: post →
      .call q ⟨.readIssues, .ok snapshots⟩ ∈ pre := by
    intro pre post heq
    subst heq
    rcases List.mem_append.1 (mem_eventsOf.1 hread) with hmem | hmem
    · exact hmem
    rcases List.mem_cons.1 hmem with hmem | hmem
    · cases hmem
    obtain ⟨u, v, rfl⟩ := List.append_of_mem hmem
    obtain ⟨x, y, -, hmove, hy⟩ := hrun.split_at
    obtain ⟨z, _, hz, hstep, -⟩ := hy.split_at
    have hnot := run_notTodo hz (fun l hl => htodo l (by simp [hl]))
      (notTodo_of_move (by decide) hmove)
    exact absurd hstatus (hnot s ((step_read hstep).mem_iff.1 hs) hid)
  intro pre post ev heq hev
  rcases hev with rfl | hev
  · exact ⟨snapshots, hmoved pre post heq⟩
  · obtain ⟨call, r⟩ := ev
    obtain ⟨hdispatch, hturn⟩ := isDispatchOf_iff.1 hev
    cases call
    case dispatch c =>
      obtain rfl : c.linearIssueId = i := hturn
      have hreach₁ := hrun.reach p
      rw [hp] at hreach₁
      have hcut : eventsOf p ls = eventsOf p pre ++ ⟨.dispatch c, r⟩ :: eventsOf p post := by
        rw [heq, eventsOf_append, ← List.singleton_append, eventsOf_append, eventsOf_singleton]
        simp
      have hmove := (dispatch_preceded hreach₁ _ _ c r hcut).2 hm
      obtain ⟨u, v, rfl⟩ := List.append_of_mem (mem_eventsOf.1 hmove)
      have hmem := hmoved u (v ++ .call p ⟨.dispatch c, r⟩ :: post) (by simp [heq])
      exact ⟨snapshots, List.mem_append_left _ hmem⟩
    all_goals exact hdispatch.elim

/-- **Two passes over one backlog.** Each dispatches an issue at most once. Where both do, both
have read before either moves or dispatches it, and one of the two runs has ended when the other
is claimed. -/
theorem no_overlapping_dispatch {p q : π} (hpq : p ≠ q) {orch₁ orch₂ : RuntimeOrchestrator}
    (hm₁ : orch₁.hasMove = true) (hm₂ : orch₂.hasMove = true)
    {m₀ m : SysConfig π (Except Exc (List OrchestratorRunResult))} {ls : List (SysLabel π)}
    (hc : m₀.world.db.Consistent) (hp : m₀.progs p = orch₁.runOnce.run)
    (hq : m₀.progs q = orch₂.runOnce.run) (hrun : (system net).Run m₀ ls m)
    (hothers : ∀ l ∈ ls, (∀ ev, l ≠ .call p ev) → (∀ ev, l ≠ .call q ev) →
      ∀ i, ¬ MovesTo i "Todo" l) (i : String) :
    dispatches i (eventsOf p ls) ≤ 1 ∧ dispatches i (eventsOf q ls) ≤ 1 ∧
    ∀ c₁ r₁ c₂ r₂, ⟨.dispatch c₁, r₁⟩ ∈ eventsOf p ls → ⟨.dispatch c₂, r₂⟩ ∈ eventsOf q ls →
      c₁.linearIssueId = i → c₂.linearIssueId = i → HadRead q p i ls ∧ HadRead p q i ls ∧
        (EndedWhenClaimed net m₀ ls c₁ q c₂ ∨ EndedWhenClaimed net m₀ ls c₂ p c₁) := by
  have hreach₁ := hrun.reach p
  have hreach₂ := hrun.reach q
  rw [hp] at hreach₁
  rw [hq] at hreach₂
  have htodo : ∀ l ∈ ls, ¬ MovesTo i "Todo" l := by
    intro l hl
    by_cases h₁ : ∃ ev, l = .call p ev
    · obtain ⟨ev, rfl⟩ := h₁
      exact pass_not_todo hreach₁ p i ev (mem_eventsOf.2 hl)
    · by_cases h₂ : ∃ ev, l = .call q ev
      · obtain ⟨ev, rfl⟩ := h₂
        exact pass_not_todo hreach₂ q i ev (mem_eventsOf.2 hl)
      · exact hothers l hl (fun ev h => h₁ ⟨ev, h⟩) (fun ev h => h₂ ⟨ev, h⟩) i
  have hcount := fun {q' : π} {orch : RuntimeOrchestrator}
      (h : Reach orch.runOnce.run (eventsOf q' ls) (m.progs q')) =>
    (count_dispatches_le_one h
      (fun snapshots hread => nodup_of_read hrun (mem_eventsOf.1 hread)) i).1
  refine ⟨hcount hreach₁, hcount hreach₂, fun c₁ r₁ c₂ r₂ h₁ h₂ hi₁ hi₂ => ?_⟩
  have hpos : ∀ {q' : π} {c : ExecutionContext} {r : Except Exc ExecutionResult},
      (⟨.dispatch c, r⟩ : CallEvent) ∈ eventsOf q' ls → c.linearIssueId = i →
        0 < dispatches i (eventsOf q' ls) := fun hmem hi =>
    List.countP_pos_iff.2 ⟨_, hmem, isDispatchOf_iff.2 ⟨trivial, hi⟩⟩
  have hclaimed : ∀ {q' : π} {orch : RuntimeOrchestrator} {c : ExecutionContext}
      {r : Except Exc ExecutionResult},
      Reach orch.runOnce.run (eventsOf q' ls) (m.progs q') →
      (⟨.dispatch c, r⟩ : CallEvent) ∈ eventsOf q' ls →
        ∃ ttl, .call q' ⟨.claim c ttl, .ok ()⟩ ∈ ls := by
    intro q' orch c r hreach hmem
    obtain ⟨pre, post, hcut⟩ := List.append_of_mem hmem
    obtain ⟨⟨ttl, hclaim⟩, -⟩ := dispatch_preceded hreach pre post c r hcut
    exact ⟨ttl, mem_eventsOf.1 (by rw [hcut]; exact List.mem_append_left _ hclaim)⟩
  obtain ⟨ttl₁, hclaim₁⟩ := hclaimed hreach₁ h₁
  obtain ⟨ttl₂, hclaim₂⟩ := hclaimed hreach₂ h₂
  exact ⟨hadRead_of_dispatch hm₁ hp hq hrun htodo (hpos h₂ hi₂),
    hadRead_of_dispatch hm₂ hq hp hrun htodo (hpos h₁ hi₁),
    claims_apart hpq hc hrun (hi₁.trans hi₂.symm) hclaim₁ hclaim₂⟩

end Passes

/-! ## One after the other -/

/-- Two orchestrators and the one issue in Linear. -/
def doubleStart : SysConfig Bool (Except Exc (List OrchestratorRunResult)) :=
  ⟨fun _ => sampleOrchestrator.runOnce.run, .start ⟨[todoSnapshot], nodup_todoSnapshot⟩⟩

/-- Both read, and then one after the other takes its turns. -/
def doubleRun : List (SysLabel Bool) × SysConfig Bool (Except Exc (List OrchestratorRunResult)) :=
  Script.calm.driver.run
    (([false, true] ++ List.replicate 10 false ++ List.replicate 10 true).map .inl) doubleStart

theorem doubleRun_others : ∀ l ∈ doubleRun.1, (∀ ev, l ≠ .call false ev) →
    (∀ ev, l ≠ .call true ev) → ∀ i, ¬ MovesTo i "Todo" l := by
  intro l hl h₁ h₂ i
  obtain ⟨b, -, ev, rfl⟩ := Script.calm.driver.mem_run_turns hl
  cases b
  · exact absurd rfl (h₁ ev)
  · exact absurd rfl (h₂ ev)

/-- The issue is dispatched twice. -/
theorem dispatched_twice :
    ¬ ∀ (p q : Bool) (orch₁ orch₂ : RuntimeOrchestrator)
      (m₀ m : SysConfig Bool (Except Exc (List OrchestratorRunResult)))
      (ls : List (SysLabel Bool)), p ≠ q → orch₁.hasMove = true → orch₂.hasMove = true →
      m₀.world.db.Consistent → m₀.progs p = orch₁.runOnce.run →
      m₀.progs q = orch₂.runOnce.run → (system reliable).Run m₀ ls m →
      (∀ l ∈ ls, (∀ ev, l ≠ .call p ev) → (∀ ev, l ≠ .call q ev) → ∀ i, ¬ MovesTo i "Todo" l) →
      ∀ i, dispatches i (eventsOf p ls) + dispatches i (eventsOf q ls) ≤ 1 := by
  intro h
  have hone := h false true sampleOrchestrator sampleOrchestrator doubleStart doubleRun.2
    doubleRun.1 (by decide) rfl rfl (consistent_empty _) rfl rfl
    (Script.calm.driver.run_sound _ _) doubleRun_others "LOL-1"
  exact absurd hone (by decide)

/-- What still holds of it. -/
theorem no_overlapping_dispatch_double :
    dispatches "LOL-1" (eventsOf false doubleRun.1) ≤ 1 ∧
    dispatches "LOL-1" (eventsOf true doubleRun.1) ≤ 1 ∧
    ∀ c₁ r₁ c₂ r₂, ⟨.dispatch c₁, r₁⟩ ∈ eventsOf false doubleRun.1 →
      ⟨.dispatch c₂, r₂⟩ ∈ eventsOf true doubleRun.1 → c₁.linearIssueId = "LOL-1" →
      c₂.linearIssueId = "LOL-1" → HadRead true false "LOL-1" doubleRun.1 ∧
        HadRead false true "LOL-1" doubleRun.1 ∧
        (EndedWhenClaimed reliable doubleStart doubleRun.1 c₁ true c₂ ∨
          EndedWhenClaimed reliable doubleStart doubleRun.1 c₂ false c₁) := by
  have hp : ∀ b, doubleStart.progs b = sampleOrchestrator.runOnce.run := fun _ => rfl
  exact no_overlapping_dispatch (by decide) rfl rfl (consistent_empty _) (hp false) (hp true)
    (Script.calm.driver.run_sound _ _) doubleRun_others "LOL-1"

end HermesRuntime
