import HermesRuntime.Classification
import HermesRuntime.OrchestratorProof
import HermesRuntime.PollerTick
import Mathlib.Data.List.Dedup

/-!
# The policy of the guard and that of the chain

The guard, `classify_issue`, the selector and `start` each check the labels of an issue. The
guard lets through what `classify_issue` accepts with every label given and no high risk, so
nothing it lets through is turned down later.

* `gateBlockReason_eq_none_iff` — what the guard lets through, against `classify_issue`.
* `guard_refines_policy` — a poll over it decides for every snapshot, and `start` agrees.
-/

namespace HermesRuntime

open Effects Prog Proc

/-! ## One gate -/

theorem gate_eq_none_iff {labels : List String} {pre : String} {known : List String}
    {human : String → Bool} : gate labels pre known human = none ↔
      ∃ value, oneLabel labels pre = .ok value ∧ value ∈ known ∧ human value = false := by
  unfold gate
  cases oneLabel labels pre with
  | error reason => simp
  | ok value =>
      by_cases hknown : value ∈ known
      · simp [hknown]
      · simp [hknown]

/-- The guard reads a label as `classify_issue` does, but has no default. -/
theorem oneLabel_eq_ok_iff (issue : Issue) (pre default : String) {value : String} :
    oneLabel issue.labels pre = .ok value ↔
      one issue pre default = .ok value ∧ ∃ l ∈ issue.labels, startsWith l pre = true := by
  have hnone : issue.labels.filter (startsWith · pre) = [] ↔
      ¬ ∃ l ∈ issue.labels, startsWith l pre = true := by
    rw [List.filter_eq_nil_iff]
    push Not
    rfl
  unfold oneLabel one
  match hlist : issue.labels.filter (startsWith · pre) with
  | [] => simp [hnone.1 hlist]
  | [l] =>
      have hsome : ∃ l ∈ issue.labels, startsWith l pre = true := by
        by_contra hno
        rw [hnone.2 hno] at hlist
        cases hlist
      rw [and_iff_left hsome]
      simp
  | _ :: _ :: _ => simp

/-! ## Agents -/

theorem knownAgents_eq : knownAgents = agents.map Prod.fst := rfl

theorem startsWith_of_known : ∀ l ∈ knownAgents, startsWith l "agent:" = true := by decide

theorem lookup_isSome_iff {α : Type} {table : List (String × α)} {key : String} :
    (table.lookup key).isSome ↔ key ∈ table.map Prod.fst := by
  induction table with
  | nil => simp
  | cons entry table ih =>
      obtain ⟨k, v⟩ := entry
      rw [List.lookup_cons, List.map_cons, List.mem_cons, ← ih]
      by_cases hk : key = k
      · simp [hk]
      · have hbeq : (key == k) = false := beq_false_of_ne hk
        simp [hbeq, hk]

/-- With no unknown agent label, the guard counts the agents `classify_issue` finds. -/
theorem agent_count {labels : List String}
    (hknown : ∀ l ∈ labels, startsWith l "agent:" = true → l ∈ knownAgents) :
    (labels.filter (startsWith · "agent:")).length = 1 ↔
      ∃ agent, (labels.filterMap fun l => agents.lookup l) = [agent] := by
  have hsame : labels.filter (startsWith · "agent:") =
      labels.filter fun l => (agents.lookup l).isSome := by
    refine List.filter_congr fun l hl => ?_
    rw [Bool.eq_iff_iff, lookup_isSome_iff, ← knownAgents_eq]
    exact ⟨hknown l hl, startsWith_of_known l⟩
  rw [hsame, ← List.countP_eq_length_filter, ← List.length_filterMap_eq_countP,
    List.length_eq_one_iff]

/-! ## The whole policy -/

/-- What the guard checks, one label after the other. -/
theorem gateBlockReason_eq_none {labels : List String} (h : labels.Nodup) :
    gateBlockReason labels = none ↔
      (∀ l ∈ labels, startsWith l "agent:" = true → l ∈ knownAgents) ∧
      (labels.filter (startsWith · "agent:")).length = 1 ∧
      gate labels "risk:" knownRisk (· ∈ ["high", "critical"]) = none ∧
      gate labels "execution:" knownExecution (· ≠ "auto") = none ∧
      gate labels "env:" knownEnv (· = "production") = none := by
  have hunknown : (labels.filter (startsWith · "agent:")).filter (· ∉ knownAgents) = [] ↔
      ∀ l ∈ labels, startsWith l "agent:" = true → l ∈ knownAgents := by
    simp only [List.filter_eq_nil_iff, List.mem_filter, decide_eq_true_eq, Decidable.not_not,
      and_imp]
  unfold gateBlockReason
  rw [h.dedup]
  by_cases hk : (labels.filter (startsWith · "agent:")).filter (· ∉ knownAgents) = []
  · by_cases hlen : (labels.filter (startsWith · "agent:")).length = 1
    · simp only [hk, hlen, ne_eq, not_true_eq_false, if_false, Option.or_eq_none_iff]
      exact ⟨fun hgates => ⟨hunknown.1 hk, trivial, hgates⟩, fun hall => hall.2.2⟩
    · simp only [hk, hlen, ne_eq, not_true_eq_false, not_false_eq_true, if_false, if_true,
        reduceCtorEq, false_iff]
      exact fun hall => hall.2.1
  · simp only [ne_eq, hk, not_false_eq_true, if_true, reduceCtorEq, false_iff]
    exact fun hall => hk (hunknown.2 hall.1)

/-- **The labels the guard lets through**: those `classify_issue` accepts in a Todo issue, with a
risk that is not high, where risk, mode and environment are all given. -/
theorem gateBlockReason_eq_none_iff (issue : Issue) :
    gateBlockReason issue.labels = none ↔
      (∃ agent risk mode environment,
        classifyIssue { issue with status := "Todo" } = .ok (agent, risk, mode, environment) ∧
          risk ≠ "high") ∧
      ∀ pre ∈ ["risk:", "execution:", "env:"],
        ∃ l ∈ issue.labels, startsWith l pre = true := by
  have hknown : (∀ l ∈ issue.labels, startsWith l "agent:" = true → l ∈ knownAgents) ↔
      ∀ l ∈ issue.labels, startsWith l "agent:" = true → (agents.lookup l).isSome := by
    refine forall₂_congr fun l _ => ?_
    rw [lookup_isSome_iff, knownAgents_eq]
  rw [gateBlockReason_eq_none issue.nodup, gate_eq_none_iff, gate_eq_none_iff, gate_eq_none_iff]
  simp only [classifyIssue_eq_ok_iff, oneLabel_eq_ok_iff issue "risk:" "low",
    oneLabel_eq_ok_iff issue "execution:" "auto", oneLabel_eq_ok_iff issue "env:" "local",
    List.forall_mem_cons, List.not_mem_nil, false_imp_iff, implies_true, and_true, true_and]
  have hrisks : ∀ risk ∈ knownRisk, decide (risk ∈ ["high", "critical"]) = false →
      risk ∈ ["low", "medium", "high"] ∧ risk ≠ "high" := by decide
  have henvs : ∀ env ∈ knownEnv, decide (env = "production") = false →
      env ∈ ["local", "preview", "staging"] := by decide
  have hrisks' : ∀ risk ∈ ["low", "medium", "high"], risk ≠ "high" →
      risk ∈ knownRisk ∧ decide (risk ∈ ["high", "critical"]) = false := by decide
  have henvs' : ∀ env ∈ ["local", "preview", "staging"],
      env ∈ knownEnv ∧ decide (env = "production") = false := by decide
  constructor
  · intro ⟨hagents, hcount, ⟨risk, ⟨hrisk, hr⟩, hriskin, hhigh⟩, ⟨mode, ⟨hmode, hm⟩, _, hauto⟩,
      ⟨env, ⟨henv, he⟩, henvin, hprod⟩⟩
    obtain ⟨agent, hagent⟩ := (agent_count hagents).1 hcount
    have hmodeauto : mode = "auto" := by simpa using hauto
    obtain ⟨hriskok, hrisklow⟩ := hrisks risk hriskin hhigh
    exact ⟨⟨agent, risk, mode, env, ⟨hknown.1 hagents, hagent, hrisk, hmode, henv, hriskok,
      hmodeauto, henvs env henvin hprod⟩, hrisklow⟩, hr, hm, he⟩
  · intro ⟨⟨agent, risk, mode, env, ⟨hagents, hagent, hrisk, hmode, henv, hriskin, hauto, henvin⟩,
      hhigh⟩, hr, hm, he⟩
    have hagents' := hknown.2 hagents
    subst hauto
    exact ⟨hagents', (agent_count hagents').2 ⟨agent, hagent⟩,
      ⟨risk, ⟨hrisk, hr⟩, hrisks' risk hriskin hhigh⟩, ⟨"auto", ⟨hmode, hm⟩, by decide, by decide⟩,
      ⟨env, ⟨henv, he⟩, henvs' env henvin⟩⟩

/-! ## The chain behind the guard -/

/-- The loop of the guard keeps what has no card and passes the policy. -/
theorem applyGuards_fst (existing : List String) (snapshots : List LinearIssueSnapshot) :
    (applyGuards existing snapshots).1 = snapshots.filter fun s =>
      s.identifier ∉ existing && (gateBlockReason s.labels).isNone := by
  induction snapshots with
  | nil => rfl
  | cons snapshot rest ih =>
      unfold applyGuards
      by_cases hin : snapshot.identifier ∈ existing
      · simp [hin, ih]
      · cases hgate : gateBlockReason snapshot.labels with
        | some reason => simp [hin, hgate, ih]
        | none => simp [hin, hgate, ih]

/-- What the guard dispatches are snapshots whose labels it lets through. -/
theorem mem_applyGuards {existing : List String} {snapshots : List LinearIssueSnapshot}
    {s : LinearIssueSnapshot} (h : s ∈ (applyGuards existing snapshots).1) :
    s ∈ snapshots ∧ gateBlockReason s.labels = none := by
  rw [applyGuards_fst, List.mem_filter, Bool.and_eq_true, Option.isNone_iff_eq_none] at h
  exact ⟨h.1, h.2.2⟩

theorem mem_dispatched {snapshots : List LinearIssueSnapshot} {existing : List String}
    {bound : Int} {outcome : GuardOutcome}
    (h : selectWithGuard snapshots existing bound = .ok outcome) {s : LinearIssueSnapshot}
    (hs : s ∈ outcome.dispatched) : s ∈ snapshots ∧ gateBlockReason s.labels = none := by
  unfold selectWithGuard at h
  split at h
  · cases h
  · cases h
    exact mem_applyGuards (List.mem_of_mem_take hs)

/-- The selector finds a Todo snapshot eligible when its labels pass the guard. -/
theorem select_eligible {s : LinearIssueSnapshot} (hstatus : s.status = "Todo")
    (hgate : gateBlockReason s.labels = none) : (select s).action = .eligible ∧
      ∀ c, IsContextOf (select s).issue c → requiresHuman c = false := by
  obtain ⟨⟨agent, risk, mode, env, hclass, hhigh⟩, -⟩ :=
    (gateBlockReason_eq_none_iff s.issue).1 hgate
  have hissue : { s.issue with status := "Todo" } = s.issue := by
    rw [← hstatus]
    rfl
  rw [hissue] at hclass
  have hselect : select s = ⟨s.issue, .eligible, none, some agent, some risk, some mode,
      some env⟩ := by
    unfold select
    rw [if_neg (not_not_intro hstatus)]
    simp only [hclass]
  rw [hselect]
  refine ⟨rfl, fun c hc => ?_⟩
  have hallows : ∀ risk ∈ ["low", "medium", "high"], risk ≠ "high" →
      risk ∉ ["high", "critical"] := by decide
  have hlocal : ∀ env ∈ ["local", "preview", "staging"], env ≠ "production" := by decide
  obtain ⟨-, -, -, -, -, -, hrisk, hmode, henv⟩ := classifyIssue_eq_ok_iff.1 hclass
  have hsame := hc.1
  rw [hclass, Except.ok.injEq, Prod.mk.injEq, Prod.mk.injEq, Prod.mk.injEq] at hsame
  obtain ⟨-, hr, hm, he⟩ := hsame
  have hnot := hallows risk hrisk hhigh
  have hnot' := hlocal env henv
  rw [hr] at hnot
  rw [he] at hnot'
  rw [hmode] at hm
  simp only [requiresHuman, ← hm, hnot, hnot', ne_eq, not_true_eq_false, decide_false,
    Bool.or_false]

/-- Eligible snapshots are decided on without a block, in order. -/
theorem returns_pollSnapshots {records : Bool} {snapshots : List LinearIssueSnapshot}
    (h : ∀ s ∈ snapshots, (select s).action = .eligible) {tr : List CallEvent}
    {o : Except Exc (List SelectionDecision)} :
    Returns (pollSnapshots records snapshots).run tr o ↔
      tr = [] ∧ o = .ok (snapshots.map select) := by
  have hrun : pollSnapshots records snapshots = pure (snapshots.map select) := by
    induction snapshots with
    | nil => rfl
    | cons s rest ih =>
        rw [List.forall_mem_cons] at h
        unfold pollSnapshots
        rw [ih h.2]
        simp only [h.1, reduceCtorEq, decide_false, Bool.false_and, if_true]
        rfl
  rw [hrun]
  exact returns_pure

/-- **The guard refines the policy of the chain.** It lets through the labels `classify_issue`
accepts with a risk that is not high and nothing left to a default. So a poll over what it
dispatches decides for every snapshot in order and blocks none, and the context of such an issue
passes the check of `start`. -/
theorem guard_refines_policy :
    (∀ issue : Issue, gateBlockReason issue.labels = none ↔
      (∃ agent risk mode environment,
        classifyIssue { issue with status := "Todo" } = .ok (agent, risk, mode, environment) ∧
          risk ≠ "high") ∧
      ∀ pre ∈ ["risk:", "execution:", "env:"],
        ∃ l ∈ issue.labels, startsWith l pre = true) ∧
    ∀ (snapshots : List LinearIssueSnapshot) (existing : List String) (bound : Int)
      (outcome : GuardOutcome), (∀ s ∈ snapshots, s.status = "Todo") →
      selectWithGuard snapshots existing bound = .ok outcome →
      (∀ records tr o,
        Returns (poll records).run (⟨.readIssues, .ok outcome.dispatched⟩ :: tr) o ↔
          tr = [] ∧ o = .ok (outcome.dispatched.map select)) ∧
      ∀ decision ∈ outcome.dispatched.map select, decision.action = .eligible ∧
        ∀ c, IsContextOf decision.issue c → requiresHuman c = false := by
  refine ⟨gateBlockReason_eq_none_iff, fun snapshots existing bound outcome htodo hselect => ?_⟩
  have heligible : ∀ s ∈ outcome.dispatched, (select s).action = .eligible ∧
      ∀ c, IsContextOf (select s).issue c → requiresHuman c = false := by
    intro s hs
    obtain ⟨hin, hgate⟩ := mem_dispatched hselect hs
    exact select_eligible (htodo s hin) hgate
  refine ⟨fun records tr o => ?_, fun decision hdecision => ?_⟩
  · rw [← returns_pollSnapshots fun s hs => (heligible s hs).1]
    constructor
    · intro h
      rcases returns_run_bind.1 h with ⟨tr₁, tr₂, read, htr, hread, hpoll⟩ | ⟨e, hread, -⟩
      · obtain rfl := returns_call_ret.1 hread
        cases htr
        exact hpoll
      · cases returns_call_ret.1 hread
    · intro h
      exact returns_run_bind.2 (Or.inl ⟨[_], tr, _, rfl, returns_call_ret.2 rfl, h⟩)
  · obtain ⟨s, hs, rfl⟩ := List.mem_map.1 hdecision
    exact heligible s hs

end HermesRuntime
