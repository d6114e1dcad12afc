import HermesRuntime.PayloadsProof
import HermesRuntime.Runtime

/-!
# Which issues are accepted

* `classifyIssue_eq_ok_iff` — what `classify_issue` asks of an issue, and what it returns.
-/

namespace HermesRuntime

@[simp] theorem throw_eq_error {α ε : Type} (e : ε) :
    (throw e : Except ε α) = .error e := rfl

theorem mem_of_ne_last {names : List String} {x last : String} (h : x ∈ names ++ [last])
    (hne : x ≠ last) : x ∈ names :=
  (List.mem_append.1 h).resolve_right fun hlast => hne (List.mem_singleton.1 hlast)

/-- **The issues `classify_issue` accepts**: Todo issues with one agent and no other agent label,
at most one label of each kind, and nothing that needs a human. -/
theorem classifyIssue_eq_ok_iff {issue : Issue} {agent risk mode environment : String} :
    classifyIssue issue = .ok (agent, risk, mode, environment) ↔
      issue.status = "Todo" ∧
      (∀ l ∈ issue.labels, startsWith l "agent:" = true → (agents.lookup l).isSome) ∧
      (issue.labels.filterMap fun l => agents.lookup l) = [agent] ∧
      one issue "risk:" "low" = .ok risk ∧ one issue "execution:" "auto" = .ok mode ∧
      one issue "env:" "local" = .ok environment ∧
      risk ∈ ["low", "medium", "high"] ∧ mode = "auto" ∧
      environment ∈ ["local", "preview", "staging"] := by
  have hknown : (issue.labels.any fun l => startsWith l "agent:" && (agents.lookup l).isNone) =
      false ↔ ∀ l ∈ issue.labels, startsWith l "agent:" = true → (agents.lookup l).isSome := by
    rw [List.any_eq_false]
    refine forall₂_congr fun l _ => ?_
    cases agents.lookup l <;> simp
  rw [← hknown]
  unfold classifyIssue
  by_cases hstatus : issue.status = "Todo"
  swap
  · simp [hstatus, bind, Except.bind]
  cases hall : issue.labels.any fun l => startsWith l "agent:" && (agents.lookup l).isNone with
  | true => simp [hstatus, bind, Except.bind]
  | false =>
  simp only [hstatus, ne_eq, not_true_eq_false, if_false, Bool.false_eq_true, true_and]
  match issue.labels.filterMap fun l => agents.lookup l with
  | [] => simp
  | a :: b :: rest => simp
  | [a] =>
      constructor
      · intro h
        obtain ⟨r, hrisk, h⟩ := bind_eq_ok.1 h
        obtain ⟨m, hmode, h⟩ := bind_eq_ok.1 h
        obtain ⟨e, henv, h⟩ := bind_eq_ok.1 h
        split at h
        · cases h
        · rename_i hvalid
          split at h
          · cases h
          · rename_i hauto
            cases h
            simp only [Bool.or_eq_true, decide_eq_true_eq, not_or, Decidable.not_not]
              at hvalid hauto
            obtain ⟨⟨hr, -⟩, he⟩ := hvalid
            obtain ⟨⟨hm, hcritical⟩, hproduction⟩ := hauto
            exact ⟨rfl, hrisk, hmode, henv, mem_of_ne_last hr hcritical, hm,
              mem_of_ne_last he hproduction⟩
      · intro ⟨hagent, hrisk, hmode, henv, hr, hm, he⟩
        cases hagent
        subst hm
        rw [hrisk, hmode, henv]
        simp only [List.mem_cons, List.not_mem_nil, or_false] at hr he
        rcases hr with rfl | rfl | rfl <;> rcases he with rfl | rfl | rfl <;> rfl

end HermesRuntime
