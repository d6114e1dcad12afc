import HermesRuntime.AuditRows
import HermesRuntime.RunRows
import HermesRuntime.TickWrites
import HermesRuntime.WorldProof

/-!
# Ticks over one store

Any number of ticks run side by side over one store, while time passes and others call the store
too: the heartbeat threads, other workers, the operator. A request to the store may be answered,
lost on the way back or never delivered. Linear, the board and the clock of each tick may answer
anything.

* `exchange` — a request up to what comes back; `post` is what the store's methods make of it.
* `storeSystem` — the ticks over the store.
* `completed_rows` — where the completed runs of `agent_runs` come from.
-/

namespace HermesRuntime

open Effects Prog Semantics

/-! ## Requests -/

/-- A request to the store, its transaction run at `now`: what comes back, and the tables. -/
def exchange (d : Delivery) (now : Timestamp) (op : StoreOp) (db : Db) :
    Except Failure Bool × Db :=
  match d with
  | .refused f => (.error f, db)
  | .lost f => (.error f, op.apply now db)
  | .answered =>
      match op.txn now db with
      | .ok (b, db') => (.ok b, db')
      | .error e => (.error e.failure, db)

/-- The store's `_post` is a request and what is made of its answer. -/
theorem post_exchange (d : Delivery) (now : Timestamp) (op : StoreOp) (db : Db) :
    post d now op db = (TickProc.answerOf (exchange d now op db).1, (exchange d now op db).2) := by
  unfold post exchange
  cases d with
  | refused f | lost f => rfl
  | answered => cases op.txn now db <;> rfl

theorem exchange_db (d : Delivery) (now : Timestamp) (op : StoreOp) (db : Db) :
    (exchange d now op db).2 = db ∨ (exchange d now op db).2 = op.apply now db := by
  have h := post_db d now op db
  rw [post_exchange] at h
  exact h

/-- What is answered has been done. -/
theorem txn_of_exchange_ok {d : Delivery} {now : Timestamp} {op : StoreOp} {db db' : Db} {b : Bool}
    (h : exchange d now op db = (.ok b, db')) : op.txn now db = .ok (b, db') := by
  unfold exchange at h
  cases d with
  | refused f | lost f => cases h
  | answered =>
      cases htxn : op.txn now db with
      | ok r =>
          rw [htxn] at h
          cases h
          rfl
      | error e =>
          rw [htxn] at h
          cases h

/-- The row of a granted claim. -/
theorem row_of_granted {d : Delivery} {now : Timestamp} {a : ClaimArgs} {db db' : Db}
    (h : exchange d now (.claim a) db = (.ok true, db')) :
    ∃ startedAt, (a.queuedRun startedAt).running now ∈ db'.runs.rows := by
  have htxn : hermesClaimRun now a db = .ok (true, db') := txn_of_exchange_ok h
  rcases claim_cases now a db with ⟨-, hc⟩ | ⟨-, -, db'', hc, hruns, -⟩ | ⟨-, -, hc⟩
  · rw [hc] at htxn
    cases htxn
  · rw [hc] at htxn
    cases htxn
    exact ⟨_, by rw [hruns]; exact List.mem_append_right _ (List.mem_singleton_self _)⟩
  · rw [hc] at htxn
    cases htxn

/-! ## The ticks -/

/-- What the ticks share. -/
structure StoreWorld where
  db : Db
  now : Timestamp

/-- What the surroundings do. -/
inductive StoreEnv where
  /-- Time passes. -/
  | tick (micros : Nat)
  /-- Another party calls the store. -/
  | store (op : StoreOp)

/-- The answer to a call of a tick, and the world after it. -/
def StoreAnswers : TickEvent → StoreWorld → StoreWorld → Prop
  | ⟨.post op, r⟩, w, w' => ∃ d, exchange d w.now op w.db = (r, w'.db) ∧ w'.now = w.now
  | _, w, w' => w' = w

/-- What the surroundings do to the world. -/
def StoreSurrounds : StoreEnv → StoreWorld → StoreWorld → Prop
  | .tick micros, w, w' => w' = { w with now := w.now + micros }
  | .store op, w, w' => w' = { w with db := op.apply w.now w.db }

/-- The ticks over one store. -/
def storeSystem (π : Type) : Semantics π TickCall TickCall.Resp StoreEnv StoreWorld where
  answer := fun _ => StoreAnswers
  surround := StoreSurrounds

/-- What a tick is started with. -/
structure TickStart where
  files : Files
  environ : Mapping String
  settings : TickSettings
  fuel : ℕ

/-- The tick itself. -/
def TickStart.prog (s : TickStart) : Prog TickCall TickCall.Resp (Except Exc ℕ) :=
  (main s.files s.environ s.settings s.fuel).run

variable {π : Type} [DecidableEq π]

/-- A step of the ticks. -/
abbrev TickLabel (π : Type) : Type := Label π TickCall TickCall.Resp StoreEnv

/-- A state of the ticks. -/
abbrev TickConfig (π : Type) : Type := Config π TickCall TickCall.Resp (Except Exc ℕ) StoreWorld

/-- The step calls the store by `op`. -/
def Requests (op : StoreOp) : TickLabel π → Prop
  | .call _ e => e.1 = .post op
  | .env x => x = .store op

/-- A step leaves the store alone, or is one call to it. -/
theorem tick_step_db {m m' : TickConfig π} {l : TickLabel π} (h : (storeSystem π).Step m l m') :
    m'.world.db = m.world.db ∨
      ∃ op, Requests op l ∧ m'.world.db = op.apply m.world.now m.world.db := by
  cases h with
  | @call p i k r w hp ha =>
      cases i with
      | post op =>
          obtain ⟨d, hd, -⟩ := ha
          have hdb := exchange_db d m.world.now op m.world.db
          rw [hd] at hdb
          rcases hdb with hsame | hdone
          · exact Or.inl hsame
          · exact Or.inr ⟨op, rfl, hdone⟩
      | _ => exact Or.inl (congrArg StoreWorld.db ha)
  | @env x w hs =>
      cases x with
      | tick micros =>
          obtain rfl : w = _ := hs
          exact Or.inl rfl
      | store op => exact Or.inr ⟨op, rfl, congrArg StoreWorld.db hs⟩

/-! ## Runs of the ticks -/

section Runs

variable {c c' : TickConfig π} {ls : List (TickLabel π)}

theorem claimColumns_run (h : (storeSystem π).Run c ls c') {x : AgentRun}
    (hx : x ∈ c.world.db.runs.rows) :
    ∃ y ∈ c'.world.db.runs.rows, y.claimColumns = x.claimColumns := by
  refine h.invariant (fun m => ∃ y ∈ m.world.db.runs.rows, y.claimColumns = x.claimColumns)
    ⟨x, hx, rfl⟩ fun {m l m'} _ hs hm => ?_
  obtain ⟨y, hy, hyx⟩ := hm
  rcases tick_step_db hs with hsame | ⟨op, -, hdb⟩
  · exact ⟨y, by rw [hsame]; exact hy, hyx⟩
  · obtain ⟨z, hz, hzy⟩ := claimColumns_apply hy m.world.now op
    exact ⟨z, by rw [hdb]; exact hz, hzy.trans hyx⟩

/-- A completed row is there from the start, or some step finished it. -/
theorem completed_run (h : (storeSystem π).Run c ls c') {x : AgentRun}
    (hx : x ∈ c'.world.db.runs.rows) (hdone : x.status = .completed) :
    x ∈ c.world.db.runs.rows ∨ ∃ l ∈ ls, ∃ arg fields now y,
      Requests (.finish x.runId x.linearIssueId "completed" arg) l ∧
      finishFields arg = some fields ∧ x = AgentRun.finished now .completed fields y := by
  induction h with
  | refl => exact Or.inl hx
  | @snoc ls l m c' _ hs ih =>
      have hbefore : x ∈ m.world.db.runs.rows → _ := fun hm => ih hm
      have hweaken : ∀ {P : TickLabel π → Prop}, (∃ l' ∈ ls, P l') → ∃ l' ∈ ls ++ [l], P l' :=
        fun ⟨l', hl', hP⟩ => ⟨l', List.mem_append_left _ hl', hP⟩
      rcases tick_step_db hs with hsame | ⟨op, hop, hdb⟩
      · rw [hsame] at hx
        exact (hbefore hx).imp id hweaken
      · rw [hdb] at hx
        rcases completed_apply hx hdone with hm | ⟨arg, fields, y, rfl, hfields, hrow⟩
        · exact (hbefore hm).imp id hweaken
        · exact Or.inr ⟨l, by simp, arg, fields, _, y, hop, hfields, hrow⟩

/-- The row of a claim a tick was granted is there ever after, with the columns of the claim. -/
theorem row_of_claim (h : (storeSystem π).Run c ls c') {p : π} {a : ClaimArgs}
    (hclaim : (⟨.post (.claim a), .ok true⟩ : TickEvent) ∈ eventsOf p ls) :
    ∃ y ∈ c'.world.db.runs.rows,
      y.claimColumns = (a.runId, a.issueId, a.agent, a.risk, a.mode, a.environment) := by
  obtain ⟨ls₁, ls₂, rfl⟩ := List.append_of_mem (mem_eventsOf.1 hclaim)
  obtain ⟨m, m', -, hs, hafter⟩ := h.split_at
  cases hs with
  | call hp ha =>
      obtain ⟨d, hd, -⟩ := ha
      obtain ⟨startedAt, hrow⟩ := row_of_granted hd
      obtain ⟨y, hy, hcolumns⟩ := claimColumns_run hafter hrow
      exact ⟨y, hy, hcolumns⟩

end Runs

/-- The row of a completed run: the columns of its context and those of its result. -/
structure AgentRun.Records (x : AgentRun) (c : ExecutionContext) (result : ExecutionResult) :
    Prop where
  claimed : x.claimColumns =
    (c.runId, c.linearIssueId, c.agent, some c.risk, some c.executionMode, some c.environment)
  commitSha : x.commitSha = result.commitSha
  pullRequestUrl : x.pullRequestUrl = result.pullRequestUrl
  railwayDeploymentId : x.railwayDeploymentId = result.railwayDeploymentId
  testsStatus : x.testsStatus = result.testsStatus
  reviewStatus : x.reviewStatus = result.reviewStatus

/-- The result columns of a run finished with the fields of a result. -/
theorem records_finished {y : AgentRun} {now : Timestamp} {c : ExecutionContext}
    {result : ExecutionResult}
    (h : (y.finished now .completed (jsonFields result.fields)).claimColumns =
      (c.runId, c.linearIssueId, c.agent, some c.risk, some c.executionMode, some c.environment)) :
    (y.finished now .completed (jsonFields result.fields)).Records c result := by
  have hfield : ∀ key v, (key, v) ∈ [
      ("commit_sha", result.commitSha), ("pull_request_url", result.pullRequestUrl),
      ("railway_deployment_id", result.railwayDeploymentId), ("tests_status", result.testsStatus),
      ("review_status", result.reviewStatus)] →
      (jsonFields result.fields).getText key = v := by
    intro key v hmem
    rw [getText_jsonFields]
    exact lookup_ofOptions _ hmem
  exact ⟨h, hfield _ _ (by simp), hfield _ _ (by simp), hfield _ _ (by simp),
    hfield _ _ (by simp), hfield _ _ (by simp)⟩

/-- **Where completed runs come from.** However ticks and others interleave over the store, and
whatever becomes of their requests: where nobody else finishes a run as completed, every completed
row of `agent_runs` that was not there before belongs to a run of one of the ticks. This tick has
read the issue as one to do which the guard lets through, has been granted the claim of the run,
and has seen the run pass: its card, its heartbeats and the gates. The row holds the context of
the run and the result of the card, so a gated agent's row has passed its tests and its review. -/
theorem completed_rows {ticks : π → TickStart} {c c' : TickConfig π} {ls : List (TickLabel π)}
    (hprogs : ∀ p, c.progs p = (ticks p).prog) (hrun : (storeSystem π).Run c ls c')
    (hothers : ∀ r i arg, .env (.store (.finish r i "completed" arg)) ∉ ls) {x : AgentRun}
    (hx : x ∈ c'.world.db.runs.rows) (hdone : x.status = .completed)
    (hnew : x ∉ c.world.db.runs.rows) :
    ∃ p first reply tasks done rest s context result,
      eventsOf p ls = ⟨.queryTodo, first⟩ :: ⟨.queryTodo, reply⟩ ::
        ⟨.board .listTasks, .ok tasks⟩ :: (done ++ rest) ∧
      Claimed (ticks p).settings reply tasks done s context ∧ requiresHuman context = false ∧
      PassedGates context result done ∧ x.Records context result ∧
      (x.agent ∈ gatedAgents →
        x.testsStatus = some "passed" ∧ x.reviewStatus = some "approved") := by
  rcases completed_run hrun hx hdone with hold | ⟨l, hl, arg, fields, now, y, hop, hfields, hrow⟩
  · exact absurd hold hnew
  cases l with
  | env e =>
      obtain rfl : e = .store _ := hop
      exact absurd hl (hothers _ _ _)
  | call p e =>
      obtain ⟨i, r⟩ := e
      obtain rfl : i = .post (.finish x.runId x.linearIssueId "completed" arg) := hop
      obtain ⟨pre, post, hevents⟩ := List.append_of_mem (mem_eventsOf.2 hl)
      have hreach := hrun.reach p
      rw [hprogs p, hevents] at hreach
      obtain ⟨k, hbefore, -⟩ := hreach.before
      obtain ⟨first, reply, tasks, done, part, s, context, rfl, hclaimed, hid, -,
        ⟨-, result, hpassed, rfl⟩ | ⟨hstatus | hstatus, -⟩⟩ := finish_call hbefore
      · obtain ⟨z, hz, hcolumns⟩ := row_of_claim hrun (p := p)
          (a := context.claimArgs (ticks p).settings.ttlSeconds)
          (by rw [hevents]; simp [hclaimed.claim])
        -- The row of the claim is this row: it has its id.
        obtain rfl : z = x := eq_of_runId _ hz hx ((congrArg Prod.fst hcolumns).trans hid)
        cases hfields
        have hrecords : z.Records context result := by
          rw [hrow]
          exact records_finished (hrow ▸ hcolumns)
        refine ⟨p, first, reply, tasks, done, part ++ ⟨_, r⟩ :: post, s, context, result,
          by rw [hevents]; simp, hclaimed, hclaimed.requiresHuman, hpassed, hrecords, ?_⟩
        have hagent : z.agent = context.agent := congrArg (·.2.2.1) hcolumns
        rw [hagent, hrecords.testsStatus, hrecords.reviewStatus]
        exact hpassed.gates
      · exact absurd hstatus (by decide)
      · exact absurd hstatus (by decide)

/-- The store answers the requests, and everything else is as in `sampleAnswers`. -/
def storeAnswers (w : StoreWorld) : (i : TickCall) → Option (i.Resp × StoreWorld)
  | .post op =>
      let (r, db) := exchange .answered w.now op w.db
      some (r, { w with db })
  | i => (sampleAnswers i).map fun r => (r, w)

theorem storeAnswers_sound {w w' : StoreWorld} {i : TickCall} {r : i.Resp}
    (h : storeAnswers w i = some (r, w')) : StoreAnswers ⟨i, r⟩ w w' := by
  cases i with
  | post op =>
      cases h
      exact ⟨.answered, rfl, rfl⟩
  | _ =>
      have hmap : (sampleAnswers _).map (fun r => (r, w)) = some (r, w') := h
      obtain ⟨r', -, heq⟩ := Option.map_eq_some_iff.1 hmap
      exact (congrArg Prod.snd heq).symm

/-- The tick of `sampleTick`. -/
def sampleStart : TickStart := ⟨sampleFiles, sampleEnviron, {}, 1⟩

/-- One tick, over empty tables. -/
def storeStart : TickConfig Unit where
  progs := fun _ => sampleStart.prog
  world := ⟨.empty ⟨fun _ => none, fun _ => none⟩, 0⟩

/-- The tick and its end. -/
def storeRun := alone storeAnswers (storeStart.progs ()) storeStart.world

theorem completed_rows_sample : ∃ x ∈ storeRun.2.2.db.runs.rows, x.status = .completed ∧
    ∃ context : ExecutionContext, (⟨.post (.claim (context.claimArgs 600)), .ok true⟩ : TickEvent) ∈
      storeRun.1 ∧ x.runId = context.runId ∧ requiresHuman context = false := by
  obtain ⟨x, hx, hdone⟩ : ∃ x ∈ storeRun.2.2.db.runs.rows, x.status = .completed := by decide
  have hprogs : ∀ p, storeStart.progs p = sampleStart.prog := fun _ => rfl
  have hrun := run_alone (S := storeSystem Unit) (p := ()) storeAnswers_sound storeStart
  obtain ⟨p, first, reply, tasks, done, rest, s, context, result, hevents, hclaimed, hhuman, -,
    hrecords, -⟩ := completed_rows hprogs hrun (by simp) hx hdone (by simp [storeStart, Db.empty])
  refine ⟨x, hx, hdone, context, ?_, congrArg Prod.fst hrecords.claimed, hhuman⟩
  rw [eventsOf_map_call] at hevents
  have hclaim : (⟨.post (.claim (context.claimArgs 600)), .ok true⟩ : TickEvent) ∈ done :=
    hclaimed.claim
  rw [show storeRun.1 = _ from hevents]
  simp [hclaim]

end HermesRuntime
