import HermesRuntime.CardTokens
import HermesRuntime.GuardPolicy
import HermesRuntime.IssueIsolation
import HermesRuntime.PassReports
import HermesRuntime.Script
import HermesRuntime.StaleWorker

/-!
# What a tick gets done

The guard spends the bound of a tick on issues that pass its policy, before the store is asked
whether they can be claimed. A refused claim is a conflict, which moves on to the next of the
issues dispatched and never to one that was skipped for the bound.

* `tickSystem` — a tick over the board, Linear and the store, with nobody else around.
* `exists_tick` — a tick can always be taken.
* `claims_iff` — a tick claims a run exactly when an issue within the bound can be claimed.
* `tick_not_used_up_iff` — so an issue behind the bound may be left over.
-/

namespace HermesRuntime

open Effects Prog Proc Semantics

/-! ## The read of a tick -/

/-- The issue has a card on the board. -/
def hasCard (tasks : List BoardTask) (issueId : String) : Bool := tasks.any (·.counts issueId)

/-- The issues that have no card, and whose labels the guard lets through. -/
def candidates (tasks : List BoardTask) (snapshots : List LinearIssueSnapshot) :
    List LinearIssueSnapshot :=
  snapshots.filter fun s => !hasCard tasks s.identifier && (gateBlockReason s.labels).isNone

theorem mem_candidates {tasks : List BoardTask} {snapshots : List LinearIssueSnapshot}
    {s : LinearIssueSnapshot} : s ∈ candidates tasks snapshots ↔ s ∈ snapshots ∧
      hasCard tasks s.identifier = false ∧ gateBlockReason s.labels = none := by
  rw [candidates, List.mem_filter, Bool.and_eq_true, Bool.not_eq_true', Option.isNone_iff_eq_none]

theorem mem_todoIssues {issues : List LinearIssueSnapshot} {s : LinearIssueSnapshot}
    (h : s ∈ todoIssues issues) : s ∈ issues ∧ s.status = "Todo" := by
  have hmem := List.mem_filter.1 (List.mem_of_mem_take h)
  exact ⟨hmem.1, of_decide_eq_true hmem.2⟩

theorem hasCard_iff {tasks : List BoardTask} {i : String} :
    hasCard tasks i = true ↔ ∃ t ∈ tasks, t.CardOf i := by
  simp only [hasCard, List.any_eq_true, BoardTask.counts_iff]

/-- What the guard dispatches: as many candidates as the bound allows. -/
theorem guardedReadIssues_eq (issues : List LinearIssueSnapshot) (tasks : List BoardTask)
    {bound : Int} (h : 1 ≤ bound) : guardedReadIssues issues tasks bound =
      .ok ((candidates tasks (todoIssues issues)).take bound.toNat) := by
  unfold guardedReadIssues
  by_cases hnil : todoIssues issues = []
  · simp only [hnil, if_true, candidates, List.filter_nil, List.take_nil]
    rfl
  have hkept : (applyGuards
      (matchExistingCards tasks ((todoIssues issues).map (·.identifier))).keys
        (todoIssues issues)).1 = candidates tasks (todoIssues issues) := by
    rw [applyGuards_fst, candidates]
    refine List.filter_congr fun s hs => ?_
    have hmem : s.identifier ∈ (todoIssues issues).map (·.identifier) := List.mem_map_of_mem hs
    have hkeys := (@mem_keys_matchExistingCards tasks _ _).trans (and_iff_right hmem)
    rw [← hasCard_iff] at hkeys
    cases hcard : hasCard tasks s.identifier with
    | true => rw [decide_eq_false (not_not_intro (hkeys.2 hcard))]; rfl
    | false =>
        have hnot : s.identifier ∉ (matchExistingCards tasks
            ((todoIssues issues).map (·.identifier))).keys := by
          rw [hkeys, hcard]
          exact Bool.false_ne_true
        rw [decide_eq_true hnot]
        rfl
  have hbound : ¬ bound < 1 := Int.not_lt.2 h
  simp only [hnil, if_false, selectWithGuard, if_neg hbound, hkept]
  rfl

/-! ## A tick -/

/-- The dispatcher succeeds, and reports are only logged. -/
def Cooperates : CallEvent → Prop
  | ⟨.dispatch _, r⟩ => ∃ result, r = .ok result
  | ⟨.recordBlocked _ _, r⟩ => r = .ok ()
  | ⟨.lockRejected _ _, r⟩ => r = .ok ()
  | _ => True

/-- The answers to the calls of a tick: the guard reads, requests are answered, and issue `i` is
recovered at the time `clock i`. -/
def TickAnswers (tasks : List BoardTask) (bound : Int) (clock : String → Timestamp) :
    CallEvent → World Unit → World Unit → Prop
  | ⟨.readIssues, r⟩, w, w' => w' = w ∧ r = guardedReadIssues w.linear.issues tasks bound
  | ⟨.recover i, r⟩, w, w' => w.now = clock i ∧ Answers reliable () ⟨.recover i, r⟩ w w'
  | ev, w, w' => Cooperates ev ∧ Answers reliable () ev w w'

/-- What happens meanwhile: time passes, and the tick's own heartbeat thread beats. -/
def TickSurrounds : EnvStep Unit → World Unit → World Unit → Prop
  | .tick micros, w, w' => Surrounds (.tick micros) w w'
  | .beat p, w, w' => Surrounds (.beat p) w w'
  | .store _, _, _ | .edit _ _, _, _ => False

/-- A tick, alone over the board, Linear and the store. -/
def tickSystem (tasks : List BoardTask) (bound : Int) (clock : String → Timestamp) :
    Semantics Unit Call Call.Resp (EnvStep Unit) (World Unit) where
  answer := fun _ => TickAnswers tasks bound clock
  surround := TickSurrounds

/-- The tick of an orchestrator from `w` on, with the calls `tr` and the outcome `o`. -/
def Ticks (orch : RuntimeOrchestrator) (tasks : List BoardTask) (bound : Int)
    (clock : String → Timestamp) (w : World Unit) (tr : List CallEvent)
    (o : Except Exc (List OrchestratorRunResult)) : Prop :=
  ∃ ls c', (tickSystem tasks bound clock).Run ⟨fun _ => orch.runOnce.run, w⟩ ls c' ∧
    c'.progs () = .ret o ∧ eventsOf () ls = tr

/-! ## What a tick leaves alone -/

/-- The step is not one for issue `j`. -/
def Spares {π : Type} (j : String) : SysLabel π → Prop
  | .call _ ⟨.recover i, _⟩ => i ≠ j
  | .call _ ⟨.claim c _, _⟩ | .call _ ⟨.event c _ _, _⟩ | .call _ ⟨.finish c _ _, _⟩
  | .call _ ⟨.startHeartbeat c _, _⟩ => c.linearIssueId ≠ j
  | .env (.store op) => op.issue ≠ j
  | _ => True

/-- The store of issue `j` is that of `db`, and no heartbeat thread beats for the issue. -/
structure Untouched {π : Type} (db : Db) (j : String) (w : World π) : Prop where
  consistent : w.db.Consistent
  only_eq : w.db.only j = db.only j
  pulse : ∀ p pulse, w.pulses p = some pulse → pulse.context.linearIssueId ≠ j

section Untouched

variable {π : Type} [DecidableEq π] {net : Net} {α : Type} {db : Db} {j : String}

/-- The context a heartbeat thread beats for after a step is the one it had, or the step started
the thread with it. -/
theorem step_pulse_context {m m' : SysConfig π α} {l : SysLabel π} (h : (system net).Step m l m')
    {p : π} {pulse : Pulse} (hpulse : m'.world.pulses p = some pulse) :
    (∃ ttl r, l = .call p ⟨.startHeartbeat pulse.context ttl, r⟩) ∨
      ∃ before, m.world.pulses p = some before ∧ before.context = pulse.context := by
  by_cases hstarts : Starts p l
  · cases l with
    | env x => exact hstarts.elim
    | call q ev =>
        obtain ⟨call, r⟩ := ev
        cases call
        case startHeartbeat c ttl =>
          obtain rfl : q = p := hstarts
          rw [step_start h] at hpulse
          cases hpulse
          exact Or.inl ⟨ttl, r, rfl⟩
        all_goals exact hstarts.elim
  · right
    rcases step_pulse_cases h hstarts with ⟨hsame, -⟩ | ⟨hjoined, -⟩ | rfl
    · exact ⟨pulse, hsame ▸ hpulse, rfl⟩
    · rw [hjoined] at hpulse
      obtain ⟨before, hbefore, rfl⟩ := Option.map_eq_some_iff.1 hpulse
      exact ⟨before, hbefore, rfl⟩
    · obtain ⟨before, _, _, hbefore, -, -, hafter⟩ := step_beat h
      rw [hafter] at hpulse
      cases hpulse
      exact ⟨before, hbefore, rfl⟩

theorem step_untouched {m m' : SysConfig π α} {l : SysLabel π} (h : (system net).Step m l m')
    (hl : Spares j l) (hm : Untouched db j m.world) : Untouched db j m'.world where
  consistent := step_consistent h hm.consistent
  only_eq := by
    rcases step_db h with heq | ⟨op, hop, heq⟩
    · rw [heq]
      exact hm.only_eq
    · have hissue : op.issue ≠ j := by
        cases hop with
        | claim | event | finish | recover | store => exact hl
        | beat hpulse => exact hm.pulse _ _ hpulse
      rw [heq, apply_only_other hm.consistent hissue]
      exact hm.only_eq
  pulse := by
    intro p pulse hpulse
    rcases step_pulse_context h hpulse with ⟨ttl, r, rfl⟩ | ⟨before, hbefore, hsame⟩
    · exact hl
    · rw [← hsame]
      exact hm.pulse p before hbefore

theorem taken_congr {db' : Db} (h : db.only j = db'.only j) : db.Taken j ↔ db'.Taken j := by
  rw [← taken_only, h, taken_only]

omit [DecidableEq π] in
/-- The recovery of the issue itself does to its store what it does from `db`. -/
theorem Untouched.recovered {w w' : World π} (h : Untouched db j w) {now : Timestamp}
    (hdb : w'.db = (StoreOp.recover j).apply now w.db)
    (hpulses : ∀ p pulse, w'.pulses p = some pulse → pulse.context.linearIssueId ≠ j) :
    Untouched ((StoreOp.recover j).apply now db) j w' where
  consistent := by
    rw [hdb]
    exact consistent_apply h.consistent _ _
  only_eq := by
    have hleft := (within_recover : (StoreOp.recover j).Within now w.db).2
    have hright := (within_recover : (StoreOp.recover j).Within now db).2
    rw [hdb]
    exact hleft.symm.trans ((congrArg _ h.only_eq).trans hright)
  pulse := hpulses

/-- A claim that is answered goes through when the issue is free, and is a conflict otherwise. -/
theorem claim_answered {now : Timestamp} {c : ExecutionContext} {ttl : Int} {r : Except Exc Unit}
    {db db' : Db} (h : SupabaseStore.claim .answered now c ttl db = (r, db')) :
    (r = .ok () ∧ validTtl ttl = true ∧ db.Free c.runId c.linearIssueId) ∨
      ∃ e, r = .error e ∧ db'.runIds = db.runIds ∧
        (validTtl ttl = true → e.isConflict = true ∧ ¬ db.Free c.runId c.linearIssueId) := by
  unfold SupabaseStore.claim post at h
  rcases claim_cases now (c.claimArgs ttl) db with
    ⟨hbad, hrun⟩ | ⟨httl, hfree, db₁, hrun, -⟩ | ⟨httl, hnot, hrun⟩
  · simp only [StoreOp.txn, hrun, SupabaseStore.orRaise] at h
    obtain ⟨rfl, rfl⟩ := Prod.mk.inj h
    refine Or.inr ⟨_, rfl, rfl, fun httl => ?_⟩
    have hsame : validTtl ttl = false := hbad
    rw [hsame] at httl
    cases httl
  · simp only [StoreOp.txn, hrun, SupabaseStore.orRaise] at h
    exact Or.inl ⟨(Prod.mk.inj h).1.symm, httl, hfree⟩
  · simp only [StoreOp.txn, hrun, SupabaseStore.orRaise] at h
    obtain ⟨rfl, rfl⟩ := Prod.mk.inj h
    exact Or.inr ⟨_, rfl, rfl, fun _ => ⟨rfl, hnot⟩⟩

/-- A step that is no claim of the store but one that is refused adds no run. -/
theorem step_runIds {m m' : SysConfig π α} {l : SysLabel π} (h : (system reliable).Step m l m')
    (hm : m.world.db.Consistent) (hclaim : ∀ p c ttl, l ≠ .call p ⟨.claim c ttl, .ok ()⟩)
    (hstore : ∀ a, l ≠ .env (.store (.claim a))) : m'.world.db.runIds = m.world.db.runIds := by
  by_cases hl : ∃ p c ttl r, l = .call p ⟨.claim c ttl, r⟩
  · obtain ⟨p, c, ttl, r, rfl⟩ := hl
    cases h with
    | call hp ha =>
        obtain ⟨d, rfl, hans, -⟩ := ha
        rcases claim_answered hans with ⟨rfl, -⟩ | ⟨e, -, hids, -⟩
        · exact absurd rfl (hclaim p c ttl)
        · exact hids
  · rcases step_db h with heq | ⟨op, hop, heq⟩
    · rw [heq]
    · rw [heq]
      refine runIds_apply hm (fun a ha => ?_) _
      subst ha
      cases hop with
      | claim => exact hl ⟨_, _, _, _, rfl⟩
      | store => exact hstore a rfl

end Untouched

/-! ## The steps of a tick -/

section Steps

variable {α : Type} {tasks : List BoardTask} {bound : Int} {clock : String → Timestamp}

/-- Its read apart, a step of a tick is one of the system, with the store to itself. -/
theorem tick_step {m m' : SysConfig Unit α} {l : SysLabel Unit}
    (h : (tickSystem tasks bound clock).Step m l m') :
    (∃ r, l = .call () ⟨.readIssues, r⟩ ∧ m'.world = m.world ∧
      r = guardedReadIssues m.world.linear.issues tasks bound) ∨
    ((system reliable).Step m l m' ∧ (∀ ev, l = .call () ev → Cooperates ev) ∧
      ∀ op, l ≠ .env (.store op)) := by
  cases h with
  | @call p call k r w hp ha =>
      have hown : ∀ {ev : CallEvent}, Cooperates ev →
          ∀ ev', (Label.call p ev : SysLabel Unit) = .call () ev' → Cooperates ev' := by
        intro ev hev ev' heq
        cases heq
        exact hev
      have hcall : ∀ {ev : CallEvent} op, (Label.call p ev : SysLabel Unit) ≠ .env (.store op) := by
        intro ev op heq
        cases heq
      cases call with
      | readIssues => exact Or.inl ⟨r, rfl, ha.1, ha.2⟩
      | recover i => exact Or.inr ⟨.call hp ha.2, hown trivial, hcall⟩
      | entropy | claim | lockRejected | startHeartbeat | joinHeartbeat | moveStatus | event
      | dispatch | finish | recordBlocked => exact Or.inr ⟨.call hp ha.2, hown ha.1, hcall⟩
  | @env x w hs =>
      have hnone : ∀ {x' : EnvStep Unit} (ev : CallEvent),
          (Label.env x' : SysLabel Unit) = .call () ev → Cooperates ev := by
        intro x' ev heq
        cases heq
      cases x with
      | tick | beat => exact Or.inr ⟨.env hs, hnone, nofun⟩
      | store | edit => exact hs.elim

/-- A request that is answered does what its call does. -/
theorem answered_db (now : Timestamp) (op : StoreOp) (db : Db) :
    (post .answered now op db).2 = op.apply now db := by
  unfold post StoreOp.apply
  cases op.txn now db <;> rfl

/-- An issue is recovered at its time. -/
theorem tick_recover {m m' : SysConfig Unit α} {i : String} {r : Except Exc Bool}
    (h : (tickSystem tasks bound clock).Step m (.call () ⟨.recover i, r⟩) m') :
    m'.world.db = (StoreOp.recover i).apply (clock i) m.world.db := by
  cases h with
  | call hp ha =>
      obtain ⟨hnow, d, rfl, hans, -⟩ := ha
      rw [hnow] at hans
      exact (congrArg Prod.snd hans).symm.trans (answered_db _ _ _)

/-- **A tick leaves other issues alone**, up to a step that is for the issue. -/
theorem tick_untouched {c c' : SysConfig Unit α} {ls : List (SysLabel Unit)} {db : Db} {j : String}
    (h : (tickSystem tasks bound clock).Run c ls c') (hls : ∀ ev ∈ eventsOf () ls,
      Spares (π := Unit) j (.call () ev)) (hc : Untouched db j c.world) :
    Untouched db j c'.world := by
  refine h.invariant (fun m => Untouched db j m.world) hc fun {m l m'} hl hs hm => ?_
  rcases tick_step hs with ⟨-, -, hw, -⟩ | ⟨hstep, -, hstore⟩
  · rw [hw]
    exact hm
  · refine step_untouched hstep ?_ hm
    cases l with
    | call p ev => exact hls ev (mem_eventsOf.2 hl)
    | env x =>
        cases x with
        | store op => exact absurd rfl (hstore op)
        | tick | beat | edit => trivial

/-- A claim goes through. -/
def Claims (tr : List CallEvent) : Prop :=
  ∃ ctx ttl, (⟨.claim ctx ttl, .ok ()⟩ : CallEvent) ∈ tr

theorem claims_append {tr tr' : List CallEvent} : Claims (tr ++ tr') ↔ Claims tr ∨ Claims tr' := by
  simp only [Claims, List.mem_append, exists_or]

theorem not_claims_of_turn {tr : List CallEvent}
    (h : ∀ ev ∈ tr, ∀ ctx ttl, ev.1 ≠ .claim ctx ttl) : ¬ Claims tr :=
  fun ⟨ctx, ttl, hmem⟩ => h _ hmem ctx ttl rfl

/-- Where no claim goes through, no run is added. -/
theorem tick_runIds {c c' : SysConfig Unit α} {ls : List (SysLabel Unit)}
    (h : (tickSystem tasks bound clock).Run c ls c') (hc : c.world.db.Consistent)
    (hls : ¬ Claims (eventsOf () ls)) : c'.world.db.runIds = c.world.db.runIds := by
  refine (h.invariant (fun m => m.world.db.Consistent ∧ m.world.db.runIds = c.world.db.runIds)
    ⟨hc, rfl⟩ fun {m l m'} hl hs hm => ?_).2
  rcases tick_step hs with ⟨-, -, hw, -⟩ | ⟨hstep, -, hstore⟩
  · rw [hw]
    exact hm
  · refine ⟨step_consistent hstep hm.1, Eq.trans ?_ hm.2⟩
    refine step_runIds hstep hm.1 (fun p ctx ttl heq => ?_) fun a => hstore _
    exact hls ⟨ctx, ttl, mem_eventsOf.2 (heq ▸ hl)⟩

theorem tick_cooperates {c c' : SysConfig Unit α} {ls : List (SysLabel Unit)}
    (h : (tickSystem tasks bound clock).Run c ls c') : ∀ ev ∈ eventsOf () ls, Cooperates ev := by
  intro ev hev
  obtain ⟨m, m', hs⟩ := h.step_of_mem (mem_eventsOf.1 hev)
  rcases tick_step hs with ⟨r, heq, -⟩ | ⟨-, hcoop, -⟩
  · cases heq
    trivial
  · exact hcoop ev rfl

/-- A recovery is answered. -/
theorem tick_recover_ok {c c' : SysConfig Unit α} {ls : List (SysLabel Unit)} {i : String} {e : Exc}
    (h : (tickSystem tasks bound clock).Run c ls c') :
    (⟨.recover i, .error e⟩ : CallEvent) ∉ eventsOf () ls := by
  intro hev
  obtain ⟨m, m', hs⟩ := h.step_of_mem (mem_eventsOf.1 hev)
  cases hs with
  | call hp ha =>
      obtain ⟨-, d, rfl, hans, -⟩ := ha
      unfold SupabaseStore.recover post at hans
      rcases recover_cases m.world.now i m.world.db with ⟨-, hrun⟩ | ⟨_, -, -, -, _, hrun, -⟩
      · simp only [StoreOp.txn, hrun] at hans
        cases hans
      · simp only [StoreOp.txn, hrun] at hans
        cases hans

/-! ## A turn of a tick -/

/-- Once its lock has been recovered, nothing in the store is in the way of a claim of the issue:
it has no active or blocked run, and no lock. -/
def Db.Claimable (db : Db) (now : Timestamp) (issueId : String) : Prop :=
  ¬ ((StoreOp.recover issueId).apply now db).Taken issueId

/-- The run ids drawn are new. -/
def Fresh (db : Db) (tr : List CallEvent) : Prop :=
  ∀ drawn, (⟨.entropy, drawn⟩ : CallEvent) ∈ tr → newRunId drawn.1 drawn.2 ∉ db.runIds

/-- The turns `pre` of a tick so far have claimed nothing, and none was for issue `i`. -/
structure Passed (i : String) (pre : List CallEvent) : Prop where
  spares : ∀ ev ∈ pre, Spares (π := Unit) i (.call () ev)
  claims : ¬ Claims pre

section Turns

variable {c c' : SysConfig Unit α} {ls : List (SysLabel Unit)}

/-- **The claim of a turn** goes through exactly where the issue can be claimed, and is a conflict
otherwise. -/
theorem tick_claim (h : (tickSystem tasks bound clock).Run c ls c')
    (hc : c.world.db.Consistent) (hidle : c.world.pulses () = none) {pre rest : List CallEvent}
    {ctx : ExecutionContext} {b : Except Exc Bool} {drawn : Nat × Fin (2 ^ 80)} {ttl : Int}
    {r : Except Exc Unit}
    (hls : eventsOf () ls = pre ++ ⟨.recover ctx.linearIssueId, b⟩ :: ⟨.entropy, drawn⟩ ::
      ⟨.claim ctx ttl, r⟩ :: rest)
    (hpre : Passed ctx.linearIssueId pre) (hnew : ctx.runId ∉ c.world.db.runIds) :
    (r = .ok () ↔ validTtl ttl = true ∧
      c.world.db.Claimable (clock ctx.linearIssueId) ctx.linearIssueId) ∧
    ∀ e, r = .error e → validTtl ttl = true → e.isConflict = true := by
  obtain ⟨ls₁, ls', rfl, hls₁, hls'⟩ := eventsOf_split hls
  obtain ⟨m₁, m₂, hrun₁, hrecover, hrun'⟩ := h.split_at
  have hdrawn : eventsOf () ls' = [⟨.entropy, drawn⟩] ++ ⟨.claim ctx ttl, r⟩ :: rest := hls'
  obtain ⟨ls₂, ls₃, rfl, hls₂, -⟩ := eventsOf_split hdrawn
  obtain ⟨m₃, m₄, hrun₂, hclaim, -⟩ := hrun'.split_at
  have hu₁ : Untouched c.world.db ctx.linearIssueId m₁.world := by
    refine tick_untouched hrun₁ (hls₁ ▸ hpre.spares) ⟨hc, rfl, fun p pulse hpulse => ?_⟩
    rw [hidle] at hpulse
    cases hpulse
  have hu₃ : Untouched ((StoreOp.recover ctx.linearIssueId).apply (clock ctx.linearIssueId)
      c.world.db) ctx.linearIssueId m₃.world := by
    refine tick_untouched hrun₂ (fun ev hev => ?_)
      (hu₁.recovered (tick_recover hrecover) fun p pulse hpulse => ?_)
    · rw [hls₂] at hev
      rw [List.mem_singleton.1 hev]
      trivial
    · rcases tick_step hrecover with ⟨_, heq, -⟩ | ⟨hstep, -⟩
      · cases heq
      · rcases step_pulse_context hstep hpulse with ⟨_, _, heq⟩ | ⟨before, hbefore, hsame⟩
        · cases heq
        · rw [← hsame]
          exact hu₁.pulse p before hbefore
  have hids : m₃.world.db.runIds = c.world.db.runIds := by
    refine tick_runIds (hrun₁.trans (.head hrecover hrun₂)) hc ?_
    have hevents : eventsOf () (ls₁ ++ .call () ⟨.recover ctx.linearIssueId, b⟩ :: ls₂) =
        pre ++ [⟨.recover ctx.linearIssueId, b⟩, ⟨.entropy, drawn⟩] := by
      rw [eventsOf_append, hls₁, ← List.singleton_append, eventsOf_append, hls₂]
      rfl
    rw [hevents, claims_append]
    refine not_or_intro hpre.claims (not_claims_of_turn fun ev hev ctx' ttl' => ?_)
    simp only [List.mem_cons, List.not_mem_nil, or_false] at hev
    rcases hev with rfl | rfl <;> nofun
  have hfree : m₃.world.db.Free ctx.runId ctx.linearIssueId ↔
      c.world.db.Claimable (clock ctx.linearIssueId) ctx.linearIssueId := by
    unfold Db.Free Db.Claimable
    rw [taken_congr hu₃.only_eq]
    refine and_iff_right fun x hx hid => hnew ?_
    rw [← hids, ← hid]
    exact List.mem_map_of_mem hx
  rcases tick_step hclaim with ⟨_, heq, -⟩ | ⟨hstep, -⟩
  · cases heq
  cases hstep with
  | call hp ha =>
      obtain ⟨d, rfl, hans, -⟩ := ha
      rw [← hfree]
      rcases claim_answered hans with ⟨rfl, hclaimed⟩ | ⟨e, rfl, -, hrefused⟩
      · exact ⟨iff_of_true rfl hclaimed, nofun⟩
      · refine ⟨iff_of_false nofun fun hcl => (hrefused hcl.1).2 hcl.2, fun e' he' httl => ?_⟩
        cases he'
        exact (hrefused httl).1

/-- An execution in a tick claims its issue, or raises a conflict. -/
theorem tick_execute (h : (tickSystem tasks bound clock).Run c ls c')
    (hc : c.world.db.Consistent) (hidle : c.world.pulses () = none) {rt : AgentRuntime}
    {hasMove : Bool} {issue : Issue} (hclass : ∃ fields, classifyIssue issue = .ok fields)
    {pre exec rest : List CallEvent} {b : Except Exc Bool} {o : Except Exc ExecutionContext}
    (hls : eventsOf () ls = pre ++ ⟨.recover issue.identifier, b⟩ :: (exec ++ rest))
    (hpre : Passed issue.identifier pre) (hfresh : Fresh c.world.db exec)
    (hexec : Returns (rt.execute hasMove issue).run exec o) :
    (Claims exec ↔ validTtl rt.ttlSeconds = true ∧
      c.world.db.Claimable (clock issue.identifier) issue.identifier) ∧
    (Claims exec ∨ ∃ e, o = .error e ∧
      (validTtl rt.ttlSeconds = true → e.isConflict = true)) := by
  obtain ⟨ctx, drawn, r, after, rfl, hissue, hid, hrefused⟩ := execute_accepted hexec hclass
  rw [← hissue] at hls hpre ⊢
  have hnew : ctx.runId ∉ c.world.db.runIds := hid ▸ hfresh drawn List.mem_cons_self
  obtain ⟨hclaim, hconflict⟩ := tick_claim h hc hidle hls hpre hnew
  rw [← hclaim]
  cases r with
  | ok u =>
      have hclaims : Claims (⟨.entropy, drawn⟩ :: ⟨.claim ctx rt.ttlSeconds, .ok u⟩ :: after) :=
        ⟨ctx, _, List.mem_cons_of_mem _ List.mem_cons_self⟩
      exact ⟨iff_of_true hclaims rfl, Or.inl hclaims⟩
  | error e =>
      obtain ⟨hafter, ho⟩ := hrefused e rfl
      refine ⟨iff_of_false ?_ nofun, Or.inr ⟨e, ?_, hconflict e rfl⟩⟩
      · rintro ⟨ctx', ttl', hmem⟩
        rcases List.mem_cons.1 hmem with heq | hmem
        · cases heq
        · rcases List.mem_cons.1 hmem with heq | hmem
          · cases heq
          · obtain ⟨_, heq⟩ := hafter _ hmem
            cases heq
      · rcases ho with rfl | ⟨-, e', hmem⟩
        · rfl
        · have hcoop := tick_cooperates h ⟨.lockRejected ctx "RunConflict", .error e'⟩
            (by rw [hls]; simp [hmem])
          cases hcoop

/-- A report to the block recorder claims nothing. -/
theorem not_claims_blockRecorded {records : Bool} {i reason : String} :
    ¬ Claims (blockRecorded records i reason) := by
  refine not_claims_of_turn fun ev hev => ?_
  unfold blockRecorded at hev
  split at hev
  · rw [List.mem_singleton.1 hev]
    exact nofun
  · cases hev

/-- **A turn of a tick** claims its issue exactly where it can be claimed, and comes to a result
otherwise. -/
theorem tick_turn (h : (tickSystem tasks bound clock).Run c ls c')
    (hc : c.world.db.Consistent) (hidle : c.world.pulses () = none) {orch : RuntimeOrchestrator}
    {issue : Issue} (hclass : ∃ fields, classifyIssue issue = .ok fields)
    {pre turn rest : List CallEvent} {o : Except Exc OrchestratorRunResult}
    (hls : eventsOf () ls = pre ++ (turn ++ rest)) (hpre : Passed issue.identifier pre)
    (hfresh : Fresh c.world.db turn) (hturn : Returns (orch.processIssue issue).run turn o) :
    (Claims turn ↔ validTtl orch.runtime.ttlSeconds = true ∧
      c.world.db.Claimable (clock issue.identifier) issue.identifier) ∧
    (validTtl orch.runtime.ttlSeconds = true → Claims turn ∨ ∃ result, o = .ok result) := by
  have hexec : ∀ (exec tail : List CallEvent) (b : Bool) (o' : Except Exc ExecutionContext),
      turn = ⟨.recover issue.identifier, .ok b⟩ :: (exec ++ tail) → ¬ Claims tail →
      Returns (orch.runtime.execute orch.hasMove issue).run exec o' →
      (Claims turn ↔ validTtl orch.runtime.ttlSeconds = true ∧
        c.world.db.Claimable (clock issue.identifier) issue.identifier) ∧
      (Claims turn ∨ ∃ e, o' = .error e ∧
        (validTtl orch.runtime.ttlSeconds = true → e.isConflict = true)) := by
    intro exec tail b o' hsplit htail hrun
    -- the claims of the turn are those of its execution
    have hsame : Claims turn ↔ Claims exec := by
      have hfirst : ¬ Claims [⟨.recover issue.identifier, .ok b⟩] :=
        not_claims_of_turn (by simp)
      rw [hsplit, ← List.singleton_append, claims_append, claims_append, or_iff_right hfirst,
        or_iff_left htail]
    rw [hsplit, List.cons_append, List.append_assoc] at hls
    have hfresh' : Fresh c.world.db exec := fun drawn hmem => hfresh drawn (by simp [hsplit, hmem])
    rw [hsame]
    exact tick_execute h hc hidle hclass hls hpre hfresh' hrun
  have hnil : ¬ Claims [] := not_claims_of_turn (List.forall_mem_nil _)
  rcases processIssue_outcome hturn with ⟨result, rfl, hresult⟩ | ⟨e, rfl, hraises⟩
  · refine ⟨?_, fun _ => Or.inr ⟨result, rfl⟩⟩
    cases hresult with
    | @completed exec _ b hrun => exact (hexec exec [] b _ (by rw [List.append_nil]) hnil hrun).1
    | @conflict exec _ b hrun => exact (hexec exec _ b _ rfl not_claims_blockRecorded hrun).1
    | @blocked exec _ b hrun => exact (hexec exec _ b _ rfl not_claims_blockRecorded hrun).1
  · cases hraises with
    | recover =>
        have hmem : (⟨.recover issue.identifier, .error e⟩ : CallEvent) ∈ eventsOf () ls := by
          rw [hls]
          simp
        exact absurd hmem (tick_recover_ok h)
    | @execute exec _ b hrun hconflict =>
        obtain ⟨hiff, hends⟩ := hexec exec [] b _ (by rw [List.append_nil]) hnil hrun
        refine ⟨hiff, fun httl => hends.imp_right ?_⟩
        rintro ⟨_, ho, hraised⟩
        cases ho
        rw [hraised httl] at hconflict
        cases hconflict
    | @record exec _ _ b reason =>
        have hcoop := tick_cooperates h ⟨.recordBlocked issue.identifier reason, .error e⟩
          (by rw [hls]; simp)
        cases hcoop

/-! ## All turns -/

theorem spares_of_isTurn {i j : String} (hij : i ≠ j) {ev : CallEvent} (h : IsTurn i ev.1) :
    Spares (π := Unit) j (.call () ev) := by
  obtain ⟨call, r⟩ := ev
  cases call with
  | recover => exact fun heq => hij (h.symm.trans heq)
  | claim | startHeartbeat | event | finish => exact fun heq => hij (h.symm.trans heq)
  | entropy | lockRejected | joinHeartbeat | moveStatus | dispatch | readIssues
  | recordBlocked => trivial

/-- **The turns of a tick** claim a run exactly where one of their issues can be claimed. -/
theorem tick_turns (h : (tickSystem tasks bound clock).Run c ls c')
    (hc : c.world.db.Consistent) (hidle : c.world.pulses () = none) {orch : RuntimeOrchestrator}
    {decisions : List SelectionDecision}
    (hclass : ∀ d ∈ decisions, ∃ fields, classifyIssue d.issue = .ok fields)
    (hnodup : (decisions.map (·.issue.identifier)).Nodup) {pre turns : List CallEvent}
    {o : Except Exc (List OrchestratorRunResult)} (hls : eventsOf () ls = pre ++ turns)
    (hpre : ∀ d ∈ decisions, Passed d.issue.identifier pre) (hfresh : Fresh c.world.db turns)
    (hturns : Returns (orch.processIssues decisions).run turns o) :
    Claims turns ↔ validTtl orch.runtime.ttlSeconds = true ∧
      ∃ d ∈ decisions, c.world.db.Claimable (clock d.issue.identifier) d.issue.identifier := by
  induction decisions generalizing pre turns o with
  | nil =>
      obtain ⟨rfl, -⟩ := returns_pure.1 hturns
      refine iff_of_false (not_claims_of_turn (List.forall_mem_nil _)) ?_
      rintro ⟨_, _, hd, _⟩
      cases hd
  | cons d decisions ih =>
      rw [List.forall_mem_cons] at hclass hpre
      rw [List.map_cons, List.nodup_cons] at hnodup
      unfold RuntimeOrchestrator.processIssues at hturns
      rcases returns_run_bind.1 hturns with ⟨turn, rest, result, rfl, hturn, h₁⟩ | ⟨e, hturn, rfl⟩
      · obtain ⟨o', hrest⟩ : ∃ o', Returns (orch.processIssues decisions).run rest o' := by
          rcases returns_run_bind.1 h₁ with ⟨rest, _, results, rfl, hrest, hpure⟩ | ⟨e, hrest, -⟩
          · obtain ⟨rfl, -⟩ := returns_pure.1 hpure
            exact ⟨_, by rw [List.append_nil]; exact hrest⟩
          · exact ⟨_, hrest⟩
        obtain ⟨hfirst, -⟩ := tick_turn h hc hidle hclass.1 hls hpre.1
          (fun drawn hmem => hfresh drawn (List.mem_append_left _ hmem)) hturn
        by_cases hclaim : Claims turn
        · obtain ⟨httl, hfree⟩ := hfirst.1 hclaim
          exact iff_of_true (claims_append.2 (Or.inl hclaim)) ⟨httl, d, List.mem_cons_self, hfree⟩
        have hpassed : ∀ d' ∈ decisions, Passed d'.issue.identifier (pre ++ turn) := by
          refine fun d' hd' => ⟨fun ev hev => ?_, ?_⟩
          · rcases List.mem_append.1 hev with hev | hev
            · exact (hpre.2 d' hd').spares ev hev
            · refine spares_of_isTurn (fun heq => hnodup.1 ?_) (processIssue_turn hturn ev hev)
              rw [heq]
              exact List.mem_map_of_mem hd'
          · rw [claims_append]
            exact not_or_intro hpre.1.claims hclaim
        have hothers := ih hclass.2 hnodup.2 (hls.trans (List.append_assoc _ _ _).symm) hpassed
          (fun drawn hmem => hfresh drawn (List.mem_append_right _ hmem)) hrest
        rw [claims_append, or_iff_right hclaim, hothers]
        refine and_congr_right fun httl => ?_
        rw [List.exists_mem_cons_iff, or_iff_right fun hfree => hclaim (hfirst.2 ⟨httl, hfree⟩)]
      · rw [← List.append_nil turns] at hls
        obtain ⟨hfirst, hends⟩ := tick_turn h hc hidle hclass.1 hls hpre.1 hfresh hturn
        constructor
        · intro hclaim
          obtain ⟨httl, hfree⟩ := hfirst.1 hclaim
          exact ⟨httl, d, List.mem_cons_self, hfree⟩
        · rintro ⟨httl, _⟩
          rcases hends httl with hclaim | ⟨result, ho⟩
          · exact hclaim
          · cases ho

end Turns

end Steps

/-! ## A whole tick -/

section Tick

variable {orch : RuntimeOrchestrator} {tasks : List BoardTask} {bound : Int}
  {clock : String → Timestamp} {w : World Unit} {tr : List CallEvent}
  {o : Except Exc (List OrchestratorRunResult)}

/-- The issues within the bound of a tick. -/
def withinBound (tasks : List BoardTask) (bound : Int) (linear : Backlog) :
    List LinearIssueSnapshot :=
  (candidates tasks (todoIssues linear.issues)).take bound.toNat

theorem mem_withinBound {linear : Backlog} {s : LinearIssueSnapshot}
    (h : s ∈ withinBound tasks bound linear) :
    s.status = "Todo" ∧ gateBlockReason s.labels = none := by
  obtain ⟨hmem, -, hgate⟩ := mem_candidates.1 (List.mem_of_mem_take h)
  exact ⟨(mem_todoIssues hmem).2, hgate⟩

theorem nodup_withinBound (linear : Backlog) :
    ((withinBound tasks bound linear).map (·.identifier)).Nodup := by
  refine linear.nodup.sublist (List.Sublist.map _ ?_)
  exact (List.take_sublist _ _).trans (List.filter_sublist.trans
    ((List.take_sublist _ _).trans List.filter_sublist))

/-- The read of a tick hands the issues within the bound to its turns. -/
theorem tick_reads (hbound : 1 ≤ bound) (h : Ticks orch tasks bound clock w tr o) :
    ∃ turns, tr = ⟨.readIssues, .ok (withinBound tasks bound w.linear)⟩ :: turns ∧
      Returns (orch.processIssues ((withinBound tasks bound w.linear).map select)).run turns o := by
  obtain ⟨ls, c', hrun, hret, rfl⟩ := h
  have hreturns : Reach orch.runOnce.run (eventsOf () ls) (c'.progs ()) := hrun.reach ()
  rw [hret] at hreturns
  obtain ⟨r, turns, htr⟩ : ∃ r turns, eventsOf () ls = ⟨.readIssues, r⟩ :: turns := by
    rcases runOnce_returns hreturns with ⟨e, htr⟩ | ⟨snapshots, records, turns, htr, -⟩
    · exact ⟨_, _, htr⟩
    · exact ⟨_, _, htr⟩
  have hr : r = .ok (withinBound tasks bound w.linear) := by
    obtain ⟨before, after, rfl, hbefore, -⟩ :=
      eventsOf_split (htr.trans (List.nil_append _).symm)
    obtain ⟨m, m', hrun₀, hread, -⟩ := hrun.split_at
    -- before its read a tick makes no call, so nobody moves an issue
    have hlinear : m.world.linear = w.linear := by
      refine hrun₀.invariant (fun m => m.world.linear = w.linear) rfl fun {m₁ l m₂} hl hs hm => ?_
      cases hs with
      | call hp ha =>
          have hmem := mem_eventsOf.2 hl
          rw [hbefore] at hmem
          cases hmem
      | @env x w' hs =>
          cases x with
          | tick micros =>
              have heq : w' = _ := hs
              rw [heq]
              exact hm
          | beat p =>
              obtain ⟨pulse, -, -, d, r, db, -, rfl⟩ := hs
              exact hm
          | store | edit => exact hs.elim
    cases hread with
    | call hp ha =>
        rw [ha.2, hlinear]
        exact guardedReadIssues_eq _ tasks hbound
  subst hr
  refine ⟨turns, htr, ?_⟩
  have hpoll : Returns (poll orch.pollerRecords).run
      [⟨.readIssues, .ok (withinBound tasks bound w.linear)⟩]
      (.ok ((withinBound tasks bound w.linear).map select)) := by
    refine returns_run_bind.2 (Or.inl ⟨[_], [], _, rfl, returns_call_ret.2 rfl, ?_⟩)
    refine (returns_pollSnapshots fun s hs => ?_).2 ⟨rfl, rfl⟩
    exact (select_eligible (mem_withinBound hs).1 (mem_withinBound hs).2).1
  rw [htr] at hreturns
  exact Reach.residue (reach_run_bind hpoll _) hreturns

/-- **A tick claims a run** exactly where an issue within its bound can be claimed. -/
theorem claims_iff (hc : w.db.Consistent) (hidle : w.pulses () = none) (hbound : 1 ≤ bound)
    (h : Ticks orch tasks bound clock w tr o) (hfresh : Fresh w.db tr) :
    Claims tr ↔ validTtl orch.runtime.ttlSeconds = true ∧
      ∃ s ∈ withinBound tasks bound w.linear,
        w.db.Claimable (clock s.identifier) s.identifier := by
  obtain ⟨turns, rfl, hturns⟩ := tick_reads hbound h
  obtain ⟨ls, c', hrun, -, hls⟩ := h
  generalize hshown : withinBound tasks bound w.linear = shown at hturns hls ⊢
  have hread : ¬ Claims [⟨.readIssues, .ok shown⟩] := not_claims_of_turn (by simp)
  have hclass : ∀ d ∈ shown.map select, ∃ fields, classifyIssue d.issue = .ok fields := by
    rw [List.forall_mem_map]
    intro s hs
    rw [← hshown] at hs
    rw [select_issue, ← action_eligible_iff]
    exact (select_eligible (mem_withinBound hs).1 (mem_withinBound hs).2).1
  have hnodup : ((shown.map select).map (·.issue.identifier)).Nodup := by
    rw [List.map_map, ← hshown]
    simpa [Function.comp_def, LinearIssueSnapshot.issue] using nodup_withinBound w.linear
  have hpassed : ∀ d ∈ shown.map select, Passed d.issue.identifier [⟨.readIssues, .ok shown⟩] :=
    fun d _ => ⟨List.forall_mem_singleton.2 trivial, hread⟩
  have hiff := tick_turns hrun hc hidle hclass hnodup
    (hls.trans (@List.singleton_append _ ⟨.readIssues, .ok shown⟩ turns).symm) hpassed
    (fun drawn hmem => hfresh drawn (hshown ▸ List.mem_cons_of_mem _ hmem)) hturns
  rw [← List.singleton_append, claims_append, or_iff_right hread, hiff]
  simp only [List.mem_map, exists_exists_and_eq_and, select_issue]
  rfl

/-! ## Ticks there are -/

/-- Everything a tick calls goes through, and run ids come of the same random bits. -/
def smoothScript (random : Fin (2 ^ 80)) : Script Unit where
  random := fun _ => random
  moveStatus := fun _ _ _ => .ok ()
  dispatch := fun _ _ => .ok {}

theorem answer_now {π : Type} [DecidableEq π] (s : Script π) (p : π) (call : Call) (w : World π) :
    (s.answer p call w).2.now = w.now := by
  cases call with
  | joinHeartbeat c =>
      show (w.joined p).now = w.now
      unfold World.joined
      split <;> rfl
  | moveStatus i status =>
      show (w.moved i status _).now = w.now
      unfold World.moved
      split <;> rfl
  | entropy | claim | lockRejected | startHeartbeat | event | dispatch | finish | recover
  | readIssues | recordBlocked => rfl

/-- **A tick can always be taken**, at one moment and with any random bits. -/
theorem exists_tick (orch : RuntimeOrchestrator) (tasks : List BoardTask) (bound : Int)
    (w : World Unit) (random : Fin (2 ^ 80)) :
    ∃ tr o, Ticks orch tasks bound (fun _ => w.now) w tr o ∧
      ∀ drawn, (⟨.entropy, drawn⟩ : CallEvent) ∈ tr → drawn = (w.now / 1000, random) := by
  have hanswers : ∀ call w', w'.now = w.now → ∃ r w'',
      (tickSystem tasks bound fun _ => w.now).answer () ⟨call, r⟩ w' w'' ∧ w''.now = w.now ∧
        ∀ drawn, (⟨call, r⟩ : CallEvent) = ⟨.entropy, drawn⟩ → drawn = (w.now / 1000, random) := by
    intro call w' hw
    have hans := (smoothScript random).answer_sound () call w'
    have hnow := (answer_now (smoothScript random) () call w').trans hw
    cases call with
    | readIssues => exact ⟨_, w', ⟨rfl, rfl⟩, hw, nofun⟩
    | recover i => exact ⟨_, _, ⟨hw, hans⟩, hnow, nofun⟩
    | dispatch c => exact ⟨_, _, ⟨⟨{}, rfl⟩, hans⟩, hnow, nofun⟩
    | lockRejected | recordBlocked => exact ⟨_, _, ⟨rfl, hans⟩, hnow, nofun⟩
    | claim | startHeartbeat | joinHeartbeat | moveStatus | event | finish =>
        exact ⟨_, _, ⟨trivial, hans⟩, hnow, nofun⟩
    | entropy =>
        refine ⟨_, _, ⟨trivial, hans⟩, hnow, fun drawn heq => ?_⟩
        cases heq
        rw [← hw]
        rfl
  obtain ⟨ls, c', o, hrun, hret, hls⟩ := exists_run_ret
    (S := tickSystem tasks bound fun _ => w.now) (p := ()) (I := fun w' => w'.now = w.now)
    (P := fun ev => ∀ drawn, ev = ⟨.entropy, drawn⟩ → drawn = (w.now / 1000, random))
    hanswers ⟨fun _ => orch.runOnce.run, w⟩ rfl
  exact ⟨eventsOf () ls, o, ⟨ls, c', hrun, hret, rfl⟩, fun drawn hmem => hls _ hmem drawn rfl⟩

/-! ## What is left over -/

/-- The issue waits for a tick: it is Todo, it has no card, the guard lets its labels through, and
it can be claimed. -/
def Waits (db : Db) (tasks : List BoardTask) (clock : String → Timestamp)
    (s : LinearIssueSnapshot) : Prop :=
  s.status = "Todo" ∧ hasCard tasks s.identifier = false ∧ gateBlockReason s.labels = none ∧
    db.Claimable (clock s.identifier) s.identifier

/-- The world a tick starts in, with no heartbeat thread yet. -/
def tickWorld (db : Db) (now : Timestamp) (linear : Backlog) : World Unit :=
  ⟨db, now, linear, fun _ => none⟩

/-- **What uses a tick up.** On the tables after any calls, over any backlog and board, a tick
claims a run if an issue waits, exactly where, if an issue waits, the TTL is at most a day and one
of the issues within the bound can be claimed, of the first 50 that are Todo. -/
theorem tick_not_used_up_iff {defaults : ColumnDefaults} {ops : List (Timestamp × StoreOp)}
    {now : Timestamp} {linear : Backlog} (hbound : 1 ≤ bound)
    (h : Ticks orch tasks bound clock (tickWorld (runOps ops (.empty defaults)) now linear) tr o)
    (hfresh : Fresh (runOps ops (.empty defaults)) tr) :
    let db := runOps ops (Db.empty defaults)
    ((∃ s ∈ linear.issues, Waits db tasks clock s) →
      ∃ c ttl, (⟨.claim c ttl, .ok ()⟩ : CallEvent) ∈ tr) ↔
    ((∃ s ∈ linear.issues, Waits db tasks clock s) →
      orch.runtime.ttlSeconds ≤ 86400 ∧
        ∃ s ∈ (candidates tasks (todoIssues linear.issues)).take bound.toNat,
          db.Claimable (clock s.identifier) s.identifier) := by
  intro db
  have hc : db.Consistent := consistent_runOps (consistent_empty defaults) ops
  have hiff := claims_iff hc rfl hbound h hfresh
  have httl : validTtl orch.runtime.ttlSeconds = true ↔ orch.runtime.ttlSeconds ≤ 86400 := by
    simp [validTtl, orch.runtime.ttl_ge]
  rw [httl] at hiff
  exact imp_congr_right fun _ => hiff

end Tick

/-! ## A blocked run at the head of the backlog -/

/-- An issue the guard lets through. -/
def gatedIssue (identifier : String) : LinearIssueSnapshot where
  identifier := identifier
  status := "Todo"
  labels := ["agent:qa", "risk:low", "execution:auto", "env:local"]
  nodup := by decide

/-- Two such issues. -/
def gatedBacklog : Backlog := ⟨[gatedIssue "LOL-1", gatedIssue "LOL-2"], by decide⟩

/-- The run of the first has ended blocked. -/
def blockedFirst : List (Timestamp × StoreOp) := [
  (0, .claim ⟨"run_1", "LOL-1", "qualidade", none, none, none, 600⟩),
  (0, .finish "run_1" "LOL-1" "blocked" .null)]

instance (db : Db) (i : String) : Decidable (db.Taken i) := inferInstanceAs (Decidable (_ ∨ _))

instance (db : Db) (now : Timestamp) (i : String) : Decidable (db.Claimable now i) :=
  inferInstanceAs (Decidable (¬ _))

instance (db : Db) (tasks : List BoardTask) (clock : String → Timestamp)
    (s : LinearIssueSnapshot) : Decidable (Waits db tasks clock s) :=
  inferInstanceAs (Decidable (_ ∧ _))

/-- The store behind them. -/
def blockedDb : Db := runOps blockedFirst (.empty ⟨some, some⟩)

/-- The second waits. -/
theorem waits_second : ∃ s ∈ gatedBacklog.issues, Waits blockedDb [] (fun _ => 0) s :=
  ⟨gatedIssue "LOL-2", by decide, by decide⟩

theorem blocked_ticks (bound : Int) : ∃ tr o,
    Ticks sampleOrchestrator [] bound (fun _ => 0) (tickWorld blockedDb 0 gatedBacklog) tr o ∧
      Fresh blockedDb tr := by
  obtain ⟨tr, o, htick, hdrawn⟩ :=
    exists_tick sampleOrchestrator [] bound (tickWorld blockedDb 0 gatedBacklog) 0
  refine ⟨tr, o, htick, fun drawn hmem => ?_⟩
  rw [hdrawn drawn hmem]
  decide

/-- With a bound of 1 the first issue uses the tick up. -/
theorem tick_used_up :
    ¬ ∀ (orch : RuntimeOrchestrator) (tasks : List BoardTask) (bound : Int)
      (clock : String → Timestamp) (defaults : ColumnDefaults) (ops : List (Timestamp × StoreOp))
      (now : Timestamp) (linear : Backlog) (tr : List CallEvent)
      (o : Except Exc (List OrchestratorRunResult)), 1 ≤ bound →
      Ticks orch tasks bound clock (tickWorld (runOps ops (.empty defaults)) now linear) tr o →
      Fresh (runOps ops (.empty defaults)) tr →
      (∃ s ∈ linear.issues, Waits (runOps ops (.empty defaults)) tasks clock s) →
      ∃ c ttl, (⟨.claim c ttl, .ok ()⟩ : CallEvent) ∈ tr := by
  intro h
  obtain ⟨tr, o, htick, hfresh⟩ := blocked_ticks 1
  have hclaims : Claims tr := h sampleOrchestrator [] 1 (fun _ => 0) ⟨some, some⟩ blockedFirst 0
    gatedBacklog tr o (by decide) htick hfresh waits_second
  have hc : blockedDb.Consistent := consistent_runOps (consistent_empty _) blockedFirst
  obtain ⟨-, s, hs, hclaimable⟩ := (claims_iff hc rfl (by decide) htick hfresh).1 hclaims
  have hfirst : ∀ s ∈ withinBound [] 1 gatedBacklog, ¬ blockedDb.Claimable 0 s.identifier := by
    decide
  exact hfirst s hs hclaimable

/-- With a bound of 2 the second is claimed. -/
theorem tick_claims_second : ∃ tr o,
    Ticks sampleOrchestrator [] 2 (fun _ => 0) (tickWorld blockedDb 0 gatedBacklog) tr o ∧
      ∃ c ttl, (⟨.claim c ttl, .ok ()⟩ : CallEvent) ∈ tr := by
  obtain ⟨tr, o, htick, hfresh⟩ := blocked_ticks 2
  refine ⟨tr, o, htick, ?_⟩
  refine (tick_not_used_up_iff (by decide) htick hfresh).2 (fun _ => ⟨by decide, ?_⟩) waits_second
  exact ⟨gatedIssue "LOL-2", by decide, by decide⟩

end HermesRuntime
