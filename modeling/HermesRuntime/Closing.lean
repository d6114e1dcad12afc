import HermesRuntime.RuntimeProof
import HermesRuntime.Script
import HermesRuntime.WorldProof

/-!
# A claimed run is closed

Once the claim has gone through, `execute` ends in exactly one finish that goes through, with
two exceptions: the run may have lost its lock before it gets there, and the `except` block
moves a blocked issue in Linear before it finishes, so that where this move raises there is no
finish at all.

* `finish_step` — the owner's finish goes through and ends the run, any other is turned away.
* `ownsFinishes_iff` — a worker owns the lock at its finishes when all of them go through.
* `claimed_run_closed_iff` — when the run is closed.
-/

namespace HermesRuntime

open Effects Prog Semantics

variable {π : Type} [DecidableEq π] {net : Net} {α : Type}

/-! ## Finishes along an interleaving -/

/-- Every finish reaches the database, and its answer comes back. -/
def ReliableFinish (net : Net) : Prop := ∀ c s fields d, net (.finish c s fields) d → d = .answered

/-- Whenever `p` calls finish, its run holds the lock. -/
def OwnsFinishes (net : Net) (p : π) (m₀ : SysConfig π α) (ls : List (SysLabel π))
    (m' : SysConfig π α) : Prop :=
  ∀ pre post c s fields r m, ls = pre ++ .call p ⟨.finish c s fields, r⟩ :: post →
    (system net).Run m₀ pre m →
    (system net).Run m (.call p ⟨.finish c s fields, r⟩ :: post) m' →
    m.world.db.Holds c.runId c.linearIssueId

/-- A move to `Blocked` raises. -/
def blockedMoveRaised (tr : List CallEvent) : Bool :=
  tr.any fun
    | ⟨.moveStatus _ "Blocked", .error _⟩ => true
    | _ => false

/-- Exactly one finish goes through, with one of the statuses the runtime gives. -/
def ClosedOnce (tr : List CallEvent) : Prop :=
  ∃ s ∈ ["completed", "failed", "blocked"], (finishes tr).filter (·.2.isOk) = [(s, .ok ())]

instance (tr : List CallEvent) : Decidable (ClosedOnce tr) :=
  inferInstanceAs (Decidable (∃ s ∈ _, _))

/-- One finish: the owner's goes through and ends the run, any other is turned away. -/
theorem finish_step {p : π} {m m' : SysConfig π α} {c : ExecutionContext} {s : String}
    {fields : Mapping String} {r : Except Exc Unit} (hrel : ReliableFinish net)
    (hcons : m.world.db.Consistent) (hs : (finalStatus s).isSome)
    (h : (system net).Step m (.call p ⟨.finish c s fields, r⟩) m') :
    (r = .ok () ∧ m.world.db.Holds c.runId c.linearIssueId ∧ m'.world.db.Ended c.runId) ∨
      ∃ e, r = .error e ∧ ¬ m.world.db.Holds c.runId c.linearIssueId := by
  cases h with
  | call hp ha =>
      obtain ⟨d, hd, hans, -⟩ := ha
      obtain rfl := hrel _ _ _ _ hd
      cases r with
      | ok u => exact Or.inl ⟨rfl, supabase_finish_ok hans⟩
      | error e =>
          refine Or.inr ⟨e, rfl, fun hown => ?_⟩
          have hok := supabase_finish_owner hcons hown hs m.world.now fields
          rw [hans] at hok
          cases hok

/-- A finish that has gone through leaves the run without a lock for good. -/
theorem not_holds_of_finished {p : π} {m₀ m' : SysConfig π α} {ls : List (SysLabel π)}
    {c : ExecutionContext} {s : String} {fields : Mapping String}
    (hcons : m₀.world.db.Consistent) (hrun : (system net).Run m₀ ls m')
    (hfin : (⟨.finish c s fields, .ok ()⟩ : CallEvent) ∈ eventsOf p ls) :
    ¬ m'.world.db.Holds c.runId c.linearIssueId := by
  obtain ⟨pre, post, rfl⟩ := List.append_of_mem (mem_eventsOf.1 hfin)
  obtain ⟨m₁, m₂, hr₁, hstep, hr₂⟩ := hrun.split_at
  have hc₂ := step_consistent hstep (run_consistent hr₁ hcons)
  have hended : m₂.world.db.Ended c.runId := by
    cases hstep with
    | call hp ha =>
        obtain ⟨d, -, hans, -⟩ := ha
        exact (supabase_finish_ok hans).2
  exact not_holds_of_ended (run_consistent hr₂ hc₂) (run_ended hr₂ hc₂ hended)

/-- Once a finish of a claimed run has raised, its run has ended, and so every later finish
raises as well. -/
theorem finish_after_error {p : π} {m₀ m' : SysConfig π α} {ls : List (SysLabel π)}
    {c : ExecutionContext} {pre mid mid' post : List CallEvent} {ttl : Int} {s s' : String}
    {fields fields' : Mapping String} {e : Exc} {r : Except Exc Unit}
    (hrel : ReliableFinish net) (hcons : m₀.world.db.Consistent)
    (hrun : (system net).Run m₀ ls m') (hs : (finalStatus s).isSome)
    (hs' : (finalStatus s').isSome)
    (htr : eventsOf p ls = pre ++ ⟨.claim c ttl, .ok ()⟩ :: (mid ++
      ⟨.finish c s fields, .error e⟩ :: (mid' ++ ⟨.finish c s' fields', r⟩ :: post))) :
    ∃ e', r = .error e' := by
  obtain ⟨ls₁, ls₂, rfl, -, htr₂⟩ := eventsOf_split htr
  obtain ⟨ls₃, ls₄, rfl, -, htr₄⟩ := eventsOf_split htr₂
  obtain ⟨ls₅, ls₆, rfl, -, -⟩ := eventsOf_split htr₄
  obtain ⟨m₁, m₂, hr₁, hclaim, hr₂⟩ := hrun.split_at
  obtain ⟨m₃, m₄, hr₃, hfin, hr₄⟩ := hr₂.split_at
  obtain ⟨m₅, m₆, hr₅, hfin', -⟩ := hr₄.split_at
  have hc₂ := step_consistent hclaim (run_consistent hr₁ hcons)
  have hc₃ := run_consistent hr₃ hc₂
  have hc₄ := step_consistent hfin hc₃
  have hc₅ := run_consistent hr₅ hc₄
  have hrow₂ : m₂.world.db.HasRun c.runId c.linearIssueId := by
    cases hclaim with
    | call hp ha =>
        obtain ⟨d, -, hans, -⟩ := ha
        exact hasRun_of_claim hans
  rcases finish_step hrel hc₃ hs hfin with ⟨hr, -, -⟩ | ⟨_, -, hlost⟩
  · cases hr
  have hended : m₃.world.db.Ended c.runId :=
    ended_of_not_holds hc₃ (run_hasRun hr₃ hc₂ hrow₂) hlost
  have hended₅ : m₅.world.db.Ended c.runId :=
    run_ended ((Run.single hfin).trans hr₅) hc₃ hended
  rcases finish_step hrel hc₅ hs' hfin' with ⟨-, hown, -⟩ | ⟨e', hr, -⟩
  · exact absurd hown (not_holds_of_ended hc₅ hended₅)
  · exact ⟨e', hr⟩

/-- The finishes of a trace have valid statuses. -/
def ValidFinishes (tr : List CallEvent) : Prop :=
  ∀ sr ∈ finishes tr, (finalStatus sr.1).isSome

theorem mem_finishes {tr : List CallEvent} {s : String} {r : Except Exc Unit} :
    (s, r) ∈ finishes tr ↔ ∃ c fields, (⟨.finish c s fields, r⟩ : CallEvent) ∈ tr := by
  unfold finishes
  rw [List.mem_filterMap]
  constructor
  · rintro ⟨⟨call, a⟩, hmem, hof⟩
    cases call <;> cases hof
    exact ⟨_, _, hmem⟩
  · rintro ⟨c, fields, hmem⟩
    exact ⟨_, hmem, rfl⟩

/-- **A worker owns the lock at its finishes when all of them go through.** -/
theorem ownsFinishes_iff {p : π} {m₀ m' : SysConfig π α} {ls : List (SysLabel π)}
    (hrel : ReliableFinish net) (hcons : m₀.world.db.Consistent)
    (hrun : (system net).Run m₀ ls m') (hvalid : ValidFinishes (eventsOf p ls)) :
    OwnsFinishes net p m₀ ls m' ↔ ∀ sr ∈ finishes (eventsOf p ls), sr.2 = .ok () := by
  constructor
  · rintro hown ⟨s, r⟩ hsr
    obtain ⟨c, fields, hmem⟩ := mem_finishes.1 hsr
    obtain ⟨pre, post, rfl⟩ := List.append_of_mem (mem_eventsOf.1 hmem)
    obtain ⟨m₁, m₂, hr₁, hstep, hr₂⟩ := hrun.split_at
    have hholds := hown pre post c s fields r m₁ rfl hr₁ (.head hstep hr₂)
    rcases finish_step hrel (run_consistent hr₁ hcons) (hvalid _ hsr) hstep with
      ⟨hr, -⟩ | ⟨_, -, hlost⟩
    · exact hr
    · exact absurd hholds hlost
  · intro hok pre post c s fields r m hls hr₁ hr₂
    have hsr : (s, r) ∈ finishes (eventsOf p ls) :=
      mem_finishes.2 ⟨c, fields, mem_eventsOf.2 (by simp [hls])⟩
    obtain ⟨m₂, hstep, -⟩ := hr₂.uncons
    rcases finish_step hrel (run_consistent hr₁ hcons) (hvalid _ hsr) hstep with
      ⟨-, hown, -⟩ | ⟨e, rfl, -⟩
    · exact hown
    · cases hok _ hsr

/-! ## The finishes of an execution -/

theorem blockedMoveRaised_append (tr tr' : List CallEvent) :
    blockedMoveRaised (tr ++ tr') = (blockedMoveRaised tr || blockedMoveRaised tr') :=
  List.any_append

theorem blockedMoveRaised_work {i : String} {c : ExecutionContext} {tr : List CallEvent}
    (h : ∀ ev ∈ tr, IsWork i c ev.1) : blockedMoveRaised tr = false := by
  refine List.any_eq_false.2 fun ev hev => ?_
  have hwork := h ev hev
  split
  · exact absurd hwork.2 (by decide)
  · simp

theorem blockedMoveRaised_cleanup {c : ExecutionContext} {tr : List CallEvent}
    (h : ∀ ev ∈ tr, IsCleanup c ev.1) : blockedMoveRaised tr = false := by
  refine List.any_eq_false.2 fun ev hev => ?_
  have hclean := h ev hev
  split
  · exact hclean.elim
  · simp

@[simp] theorem blockedMoveRaised_movedTo (m : Bool) (i s : String) :
    blockedMoveRaised (movedTo m i s) = false := by
  cases m
  · rfl
  · simp [movedTo, blockedMoveRaised]

@[simp] theorem blockedMoveRaised_claimSteps (rt : AgentRuntime) (c : ExecutionContext)
    (drawn : Nat × Fin (2 ^ 80)) : blockedMoveRaised (claimSteps rt c drawn) = false := rfl

@[simp] theorem blockedMoveRaised_finish (c : ExecutionContext) (s : String)
    (fields : Mapping String) (r : Except Exc Unit) :
    blockedMoveRaised [⟨.finish c s fields, r⟩] = false := rfl

@[simp] theorem blockedMoveRaised_raised (i : String) (e : Exc) :
    blockedMoveRaised [⟨.moveStatus i "Blocked", .error e⟩] = true := rfl

/-- The `except` block on its own: it ends in one finish, unless its move raises. -/
theorem failTrace_finishes {m : Bool} {i : String} {c : ExecutionContext} {exc : Exc}
    {tr : List CallEvent} {o : Except Exc ExecutionContext} (h : FailTrace m i c exc tr o) :
    (blockedMoveRaised tr = true ∧ finishes tr = []) ∨
      (blockedMoveRaised tr = false ∧ ∃ s ∈ ["failed", "blocked"], ∃ mid fields r,
        tr = mid ++ [⟨.finish c s fields, r⟩] ∧ finishes tr = [(s, r)]) := by
  cases h with
  | @moveFailed clean e hm hclean hblocked =>
      left
      have hf := finishes_cleanup hclean
      simp [blockedMoveRaised_append, hf]
  | @blocked clean r e hclean hblocked =>
      right
      have hf := finishes_cleanup hclean
      refine ⟨?_, "blocked", by simp, clean ++ movedTo m i "Blocked", _, r, rfl, by simp [hf]⟩
      simp [blockedMoveRaised_append, blockedMoveRaised_cleanup hclean]
  | @failed clean r e hclean hblocked =>
      right
      have hf := finishes_cleanup hclean
      refine ⟨?_, "failed", by simp, clean, _, r, rfl, by simp [hf]⟩
      simp [blockedMoveRaised_append, blockedMoveRaised_cleanup hclean]

/-- The `try` block on its own: no finish yet, or a last one as completed. -/
theorem bodyTrace_finishes {m : Bool} {issue : Issue} {c : ExecutionContext}
    {tr : List CallEvent} {o : Except Exc ExecutionContext} (h : BodyTrace m issue c tr o) :
    blockedMoveRaised tr = false ∧
      ((finishes tr = [] ∧ ∃ e, o = .error e) ∨ ∃ mid fields r,
        tr = mid ++ [⟨.finish c "completed" fields, r⟩] ∧ finishes tr = [("completed", r)] ∧
          o = r.map fun _ => c) := by
  cases h with
  | stopped e hdisp =>
      have hwork := dispatchIssue_work hdisp
      exact ⟨blockedMoveRaised_work hwork, Or.inl ⟨finishes_work hwork, e, rfl⟩⟩
  | @reviewFailed work result e hm hdisp =>
      have hwork := dispatchIssue_work hdisp
      have hf := finishes_work hwork
      refine ⟨?_, Or.inl ⟨by simp [hf], e, rfl⟩⟩
      rw [blockedMoveRaised_append, blockedMoveRaised_work hwork]
      rfl
  | @finished work result r hdisp =>
      have hwork := dispatchIssue_work hdisp
      have hf := finishes_work hwork
      refine ⟨?_, Or.inr ⟨work ++ movedTo m issue.identifier "In Review", _, r, rfl, by simp [hf],
        rfl⟩⟩
      simp [blockedMoveRaised_append, blockedMoveRaised_work hwork]

/-- What the finishes of a claimed execution come to: one; or two, of which the first raised; or
at most a first that raised, because the move to `Blocked` raised too. -/
inductive Finishes (c : ExecutionContext) (tr : List CallEvent) : Prop
  | once {s : String} {r : Except Exc Unit}
      (hs : s ∈ ["completed", "failed", "blocked"]) (hmove : blockedMoveRaised tr = false)
      (hmem : ∃ fields, (⟨.finish c s fields, r⟩ : CallEvent) ∈ tr) (hall : finishes tr = [(s, r)])
  | again {s : String} {pre mid mid' : List CallEvent} {ttl : Int}
      {fields fields' : Mapping String} {e : Exc} {r : Except Exc Unit}
      (hs : s ∈ ["failed", "blocked"])
      (htr : tr = pre ++ ⟨.claim c ttl, .ok ()⟩ :: (mid ++
        ⟨.finish c "completed" fields, .error e⟩ :: (mid' ++ [⟨.finish c s fields', r⟩])))
      (hall : finishes tr = [("completed", .error e), (s, r)])
  | never (hmove : blockedMoveRaised tr = true)
      (hall : ∀ sr ∈ finishes tr, ∃ e, sr = ("completed", .error e))

theorem execute_finishes {rt : AgentRuntime} {m : Bool} {issue : Issue} {tr : List CallEvent}
    {o : Except Exc ExecutionContext} (h : Returns (rt.execute m issue).run tr o)
    (hclaim : claimed tr = true) :
    ∃ c, IsContextOf issue c ∧ ⟨.claim c rt.ttlSeconds, .ok ()⟩ ∈ tr ∧ Finishes c tr := by
  rcases execute_returns h with ⟨hrefused, -⟩ | ⟨c, drawn, body, rest, rfl, hcontext, hends⟩
  · rw [not_claimed_of_refused hrefused] at hclaim
    cases hclaim
  refine ⟨c, hcontext, by simp [claimSteps], ?_⟩
  rcases hends with ⟨c', rfl, rfl, hb⟩ | ⟨e, hb, hf⟩
  · obtain ⟨hmove, ⟨-, e, ho⟩ | ⟨mid, fields, r, rfl, hall, -⟩⟩ := bodyTrace_finishes hb
    · cases ho
    · have hmove' : blockedMoveRaised (claimSteps rt c drawn ++
          (mid ++ [⟨.finish c "completed" fields, r⟩]) ++ []) = false := by
        simpa [blockedMoveRaised_append] using hmove
      exact .once (s := "completed") (r := r) (by simp) hmove' ⟨fields, by simp⟩ (by simp [hall])
  · obtain ⟨hmove, ⟨hnone, -⟩ | ⟨mid, fields, r, rfl, hall, ho⟩⟩ := bodyTrace_finishes hb
    · rcases failTrace_finishes hf with ⟨hraised, hnone'⟩ |
        ⟨hmove', s, hs, mid, fields, r, rfl, hall⟩
      · exact .never (by simp [blockedMoveRaised_append, hraised]) (by simp [hnone, hnone'])
      · exact .once (r := r) (List.mem_cons_of_mem _ hs)
          (by simp [blockedMoveRaised_append, hmove, hmove']) ⟨fields, by simp⟩
          (by simp [hnone, hall])
    · cases r with
      | ok u => cases ho
      | error e' =>
          rcases failTrace_finishes hf with ⟨hraised, hnone'⟩ |
            ⟨hmove', s, hs, mid', fields', r, rfl, hall'⟩
          · refine .never (by rw [blockedMoveRaised_append, hraised, Bool.or_true]) ?_
            intro sr hsr
            rw [finishes_append, finishes_append, hall, hnone', List.append_nil] at hsr
            exact ⟨e', List.mem_singleton.1 hsr⟩
          · have htr : claimSteps rt c drawn ++ (mid ++ [⟨.finish c "completed" fields,
                .error e'⟩]) ++ (mid' ++ [⟨.finish c s fields', r⟩]) =
                [⟨.entropy, drawn⟩] ++ ⟨.claim c rt.ttlSeconds, .ok ()⟩ ::
                  ((⟨.startHeartbeat c rt.ttlSeconds, ()⟩ :: mid) ++
                    ⟨.finish c "completed" fields, .error e'⟩ ::
                      (mid' ++ [⟨.finish c s fields', r⟩])) := by
              simp [claimSteps]
            refine .again (e := e') (r := r) hs htr ?_
            rw [finishes_append, finishes_append, hall, hall']
            rfl

/-! ## The theorem -/

theorem valid_of_mem {s : String} (h : s ∈ ["completed", "failed", "blocked"]) :
    (finalStatus s).isSome := by
  simp only [List.mem_cons, List.not_mem_nil, or_false] at h
  rcases h with rfl | rfl | rfl <;> rfl

/-- **A claimed run is closed** exactly when its worker owns the lock whenever it calls finish
and no move to `Blocked` raises: one finish goes through, and the run holds no lock. -/
theorem claimed_run_closed_iff {p : π} {rt : AgentRuntime} {m : Bool} {issue : Issue}
    {m₀ m' : SysConfig π (Except Exc ExecutionContext)} {ls : List (SysLabel π)}
    {o : Except Exc ExecutionContext} (hrel : ReliableFinish net)
    (hcons : m₀.world.db.Consistent) (hp : m₀.progs p = (rt.execute m issue).run)
    (hrun : (system net).Run m₀ ls m') (hret : m'.progs p = .ret o)
    (hclaim : claimed (eventsOf p ls) = true) :
    ∃ c, IsContextOf issue c ∧ ⟨.claim c rt.ttlSeconds, .ok ()⟩ ∈ eventsOf p ls ∧
      ((ClosedOnce (eventsOf p ls) ∧ ¬ m'.world.db.Holds c.runId c.linearIssueId) ↔
        blockedMoveRaised (eventsOf p ls) = false ∧ OwnsFinishes net p m₀ ls m') := by
  have hreturns : Returns (rt.execute m issue).run (eventsOf p ls) o := by
    have hreach := hrun.reach p
    rw [hp, hret] at hreach
    exact hreach
  obtain ⟨c, hcontext, hmem, hfin⟩ := execute_finishes hreturns hclaim
  refine ⟨c, hcontext, hmem, ?_⟩
  cases hfin with
  | @once s r hs hmove hmem hall =>
      obtain ⟨fields, hmem⟩ := hmem
      have hvalid : ValidFinishes (eventsOf p ls) := by
        intro sr hsr
        rw [hall, List.mem_singleton] at hsr
        rw [hsr]
        exact valid_of_mem hs
      rw [ownsFinishes_iff hrel hcons hrun hvalid, ClosedOnce, hall]
      cases r with
      | ok u =>
          refine iff_of_true ⟨⟨s, hs, rfl⟩, not_holds_of_finished hcons hrun hmem⟩ ⟨hmove, ?_⟩
          intro sr hsr
          rw [List.mem_singleton.1 hsr]
      | error e =>
          refine iff_of_false (fun h => ?_) (fun h => ?_)
          · obtain ⟨⟨s', -, hone⟩, -⟩ := h
            cases hone
          · cases h.2 _ (List.mem_singleton_self _)
  | @again s pre mid mid' ttl fields fields' e r hs htr hall =>
      have hvalid : ValidFinishes (eventsOf p ls) := by
        intro sr hsr
        rw [hall] at hsr
        rcases List.mem_cons.1 hsr with rfl | hsr
        · exact valid_of_mem (by simp)
        · rw [List.mem_singleton.1 hsr]
          exact valid_of_mem (List.mem_cons_of_mem _ hs)
      obtain ⟨e', rfl⟩ := finish_after_error hrel hcons hrun (valid_of_mem (by simp))
        (valid_of_mem (List.mem_cons_of_mem _ hs)) htr
      rw [ownsFinishes_iff hrel hcons hrun hvalid, ClosedOnce, hall]
      refine iff_of_false (fun h => ?_) (fun h => ?_)
      · obtain ⟨⟨s', -, hone⟩, -⟩ := h
        cases hone
      · cases h.2 _ List.mem_cons_self
  | never hmove hall =>
      refine iff_of_false (fun h => ?_) (fun h => ?_)
      · obtain ⟨⟨s, -, hone⟩, -⟩ := h
        have hsr : (s, .ok ()) ∈ (finishes (eventsOf p ls)).filter (·.2.isOk) := by
          rw [hone]
          exact List.mem_singleton_self _
        obtain ⟨e, he⟩ := hall _ (List.mem_filter.1 hsr).1
        cases he
      · rw [hmove] at h
        cases h.1

/-! ## One worker alone -/

/-- An issue whose results have to pass the gates. -/
def backendIssue : Issue := ⟨"LOL-2", ["agent:backend"], by simp, "Todo"⟩

/-- A worker about to execute the issue, over empty tables. -/
def aloneStart : SysConfig Unit (Except Exc ExecutionContext) :=
  ⟨fun _ => (AgentRuntime.ofStore.execute true backendIssue).run, .start ⟨[], List.nodup_nil⟩⟩

/-- The dispatcher returns no statuses, and Linear answers `blocked` to the move to `Blocked`. -/
def gatelessScript (blocked : Except Exc Unit) : Script Unit where
  random := fun _ => 0
  moveStatus := fun _ _ status => if status = "Blocked" then blocked else .ok ()
  dispatch := fun _ _ => .ok {}

/-- The worker takes its turns to the end. -/
def aloneRun (blocked : Except Exc Unit) :
    List (SysLabel Unit) × SysConfig Unit (Except Exc ExecutionContext) :=
  (gatelessScript blocked).driver.run (List.replicate 10 (.inl ())) aloneStart

/-- The run stays open when the move to `Blocked` raises. -/
theorem claimed_run_left_open :
    ¬ ∀ (net : Net) (p : Unit) (rt : AgentRuntime) (m : Bool) (issue : Issue)
      (m₀ m' : SysConfig Unit (Except Exc ExecutionContext)) (ls : List (SysLabel Unit))
      (o : Except Exc ExecutionContext), ReliableFinish net → m₀.world.db.Consistent →
      m₀.progs p = (rt.execute m issue).run → (system net).Run m₀ ls m' →
      m'.progs p = .ret o → claimed (eventsOf p ls) = true → OwnsFinishes net p m₀ ls m' →
      ∃ c, ⟨.claim c rt.ttlSeconds, .ok ()⟩ ∈ eventsOf p ls ∧ ClosedOnce (eventsOf p ls) ∧
        ¬ m'.world.db.Holds c.runId c.linearIssueId := by
  intro h
  let raised : Except Exc Unit := .error (.runtimeError "Linear is down")
  have hrel : ReliableFinish reliable := fun _ _ _ _ hd => hd
  have hcons : aloneStart.world.db.Consistent := consistent_empty _
  have hrun : (system reliable).Run aloneStart (aloneRun raised).1 (aloneRun raised).2 :=
    (gatelessScript raised).driver.run_sound _ _
  have hnone : finishes (eventsOf () (aloneRun raised).1) = [] := by decide
  have hvalid : ValidFinishes (eventsOf () (aloneRun raised).1) := by
    intro sr hsr
    rw [hnone] at hsr
    cases hsr
  have howns : OwnsFinishes reliable () aloneStart (aloneRun raised).1 (aloneRun raised).2 := by
    rw [ownsFinishes_iff hrel hcons hrun hvalid, hnone]
    exact nofun
  obtain ⟨o, ho⟩ := Option.isSome_iff_exists.1
    (by decide : ((aloneRun raised).2.progs ()).result.isSome)
  obtain ⟨-, -, hclosed, -⟩ := h reliable () .ofStore true backendIssue aloneStart
    (aloneRun raised).2 (aloneRun raised).1 o hrel hcons rfl hrun (ret_of_result ho)
    (by decide) howns
  exact absurd hclosed (by decide)

/-- The run is closed when the move to `Blocked` goes through. -/
theorem claimed_run_closed_iff_blocked :
    ∃ o c, (aloneRun (.ok ())).2.progs () = .ret o ∧ IsContextOf backendIssue c ∧
      ⟨.claim c 600, .ok ()⟩ ∈ eventsOf () (aloneRun (.ok ())).1 ∧
      ((ClosedOnce (eventsOf () (aloneRun (.ok ())).1) ∧
          ¬ (aloneRun (.ok ())).2.world.db.Holds c.runId c.linearIssueId) ↔
        blockedMoveRaised (eventsOf () (aloneRun (.ok ())).1) = false ∧
          OwnsFinishes reliable () aloneStart (aloneRun (.ok ())).1 (aloneRun (.ok ())).2) := by
  obtain ⟨o, ho⟩ := Option.isSome_iff_exists.1
    (by decide : ((aloneRun (.ok ())).2.progs ()).result.isSome)
  have hp : aloneStart.progs () = (AgentRuntime.ofStore.execute true backendIssue).run := rfl
  obtain ⟨c, hc⟩ := claimed_run_closed_iff (fun _ _ _ _ hd => hd) (consistent_empty _) hp
    ((gatelessScript (.ok ())).driver.run_sound (List.replicate 10 (.inl ())) aloneStart)
    (ret_of_result ho) (by decide)
  exact ⟨o, c, ret_of_result ho, hc⟩

end HermesRuntime
