import HermesRuntime.Fencing
import HermesRuntime.World

/-!
# The system: what its steps do to the store

Every step of the system is at most one call to the store, at the time of the world
(`step_db`), so the store's invariant and fencing hold along every interleaving.

* `run_consistent` — the store's invariant along an interleaving.
* `run_ended_row` — an ended run along an interleaving.
* `run_ended` — a run that has ended stays ended.
* `run_holds`, `run_expired` — a lock stays until its run is finished or recovered.
* `step_linear`, `run_snapshot` — what moves an issue in Linear.
-/

namespace HermesRuntime

open Effects Semantics

variable {π : Type} [DecidableEq π] {net : Net} {α : Type}

/-- A step of the system. -/
abbrev SysLabel (π : Type) : Type := Label π Call Call.Resp (EnvStep π)

/-- A state of the system. -/
abbrev SysConfig (π α : Type) : Type := Config π Call Call.Resp α (World π)

/-! ## Steps as calls to the store -/

/-- The call to the store a step makes. -/
inductive StepCalls (w : World π) : SysLabel π → StoreOp → Prop
  | claim {p : π} {c : ExecutionContext} {ttl : Int} {r : Except Exc Unit} :
      StepCalls w (.call p ⟨.claim c ttl, r⟩) (.claim (c.claimArgs ttl))
  | event {p : π} {c : ExecutionContext} {kind : String} {payload : Mapping PyVal}
      {r : Except Exc Unit} {body : JsonObject}
      (hbody : validateEventPayload kind (.mapping payload) >>= jsonBody = .ok body) :
      StepCalls w (.call p ⟨.event c kind payload, r⟩)
        (.insertEvent ⟨c.runId, c.linearIssueId, c.agent, kind, body⟩)
  | finish {p : π} {c : ExecutionContext} {s : String} {fields : Mapping String}
      {r : Except Exc Unit} :
      StepCalls w (.call p ⟨.finish c s fields, r⟩)
        (.finish c.runId c.linearIssueId s (.object (jsonFields fields)))
  | recover {p : π} {i : String} {r : Except Exc Bool} :
      StepCalls w (.call p ⟨.recover i, r⟩) (.recover i)
  | beat {p : π} {pulse : Pulse} (hpulse : w.pulses p = some pulse) :
      StepCalls w (.env (.beat p))
        (.heartbeat pulse.context.runId pulse.context.linearIssueId pulse.ttlSeconds)
  | store {op : StoreOp} : StepCalls w (.env (.store op)) op

/-- A request changes nothing, or does what its call does. -/
theorem post_db (d : Delivery) (now : Timestamp) (op : StoreOp) (db : Db) :
    (post d now op db).2 = db ∨ (post d now op db).2 = op.apply now db := by
  cases d with
  | refused f => exact Or.inl rfl
  | lost f => exact Or.inr rfl
  | answered =>
      unfold post
      cases h : op.txn now db with
      | ok r =>
          right
          rw [StoreOp.apply_ok op h]
      | error e => exact Or.inl rfl

/-- The database after a step. -/
theorem step_db {m m' : SysConfig π α} {l : SysLabel π} (h : (system net).Step m l m') :
    m'.world.db = m.world.db ∨ ∃ op, StepCalls m.world l op ∧
      m'.world.db = op.apply m.world.now m.world.db := by
  have hpost : ∀ {d op db'}, (post d m.world.now op m.world.db).2 = db' →
      StepCalls m.world l op → db' = m.world.db ∨ ∃ op, StepCalls m.world l op ∧
        db' = op.apply m.world.now m.world.db := by
    intro d op db' hdb hop
    rcases post_db d m.world.now op m.world.db with h | h
    · exact Or.inl (hdb.symm.trans h)
    · exact Or.inr ⟨op, hop, hdb.symm.trans h⟩
  cases h with
  | @call p call k r w hp ha =>
      cases call with
      | entropy | lockRejected | dispatch | recordBlocked =>
          have heq : w = m.world := ha
          exact Or.inl (by rw [heq])
      | startHeartbeat c ttl =>
          have heq : w = _ := ha
          exact Or.inl (by rw [heq]; rfl)
      | joinHeartbeat c =>
          obtain ⟨-, rfl⟩ := ha
          left
          unfold World.joined
          split <;> rfl
      | moveStatus i s =>
          rcases ha with rfl | ⟨rfl, -⟩ <;> exact Or.inl rfl
      | readIssues =>
          obtain ⟨rfl, -⟩ := ha
          exact Or.inl rfl
      | claim c ttl =>
          obtain ⟨d, -, hans, -⟩ := ha
          exact hpost (congrArg Prod.snd hans) .claim
      | finish c s fields =>
          obtain ⟨d, -, hans, -⟩ := ha
          exact hpost (congrArg Prod.snd hans) .finish
      | recover i =>
          obtain ⟨d, -, hans, -⟩ := ha
          exact hpost (congrArg Prod.snd hans) .recover
      | event c kind payload =>
          obtain ⟨d, -, hans, -⟩ := ha
          unfold SupabaseStore.event at hans
          cases hbody : validateEventPayload kind (.mapping payload) >>= jsonBody with
          | error e =>
              rw [hbody] at hans
              exact Or.inl (congrArg Prod.snd hans).symm
          | ok body =>
              rw [hbody] at hans
              exact hpost (congrArg Prod.snd hans) (.event hbody)
  | @env x w hs =>
      cases x with
      | tick micros =>
          have heq : w = _ := hs
          exact Or.inl (by rw [heq])
      | edit i s =>
          have heq : w = _ := hs
          exact Or.inl (by rw [heq])
      | store op =>
          have heq : w = _ := hs
          exact Or.inr ⟨op, .store, by rw [heq]; rfl⟩
      | beat p =>
          obtain ⟨pulse, hpulse, -, d, r, db, hans, rfl⟩ := hs
          exact hpost (congrArg Prod.snd hans) (.beat hpulse)

/-! ## Along an interleaving -/

theorem step_consistent {m m' : SysConfig π α} {l : SysLabel π} (h : (system net).Step m l m')
    (hc : m.world.db.Consistent) : m'.world.db.Consistent := by
  rcases step_db h with heq | ⟨op, -, heq⟩
  · rw [heq]
    exact hc
  · rw [heq]
    exact consistent_apply hc _ op

/-- **The store's invariant holds along every interleaving.** -/
theorem run_consistent {c c' : SysConfig π α} {ls : List (SysLabel π)}
    (h : (system net).Run c ls c') (hc : c.world.db.Consistent) : c'.world.db.Consistent :=
  h.invariant (fun m => m.world.db.Consistent) hc fun _ hs hm => step_consistent hs hm

/-- A step of `p` was answered. -/
theorem answered_of_run {p : π} {m₀ m' : SysConfig π α} {ls : List (SysLabel π)} {ev : CallEvent}
    (hrun : (system net).Run m₀ ls m') (hev : ev ∈ eventsOf p ls) :
    ∃ w w', Answers net p ev w w' := by
  obtain ⟨pre, post, rfl⟩ := List.append_of_mem (mem_eventsOf.1 hev)
  obtain ⟨m₁, m₂, -, hstep, -⟩ := hrun.split_at
  cases hstep with
  | call hp ha => exact ⟨_, _, ha⟩

/-- The operator's release of an issue. -/
def Releases (i : String) (ls : List (SysLabel π)) : Prop := .env (.store (.release i)) ∈ ls

/-- **An ended run along an interleaving**: its row stays as it is, unless the operator releases
its issue. -/
theorem run_ended_row {c c' : SysConfig π α} {ls : List (SysLabel π)}
    (h : (system net).Run c ls c') (hc : c.world.db.Consistent) {x : AgentRun}
    (hx : x ∈ c.world.db.runs.rows) (hs : x.status ≠ .running) :
    ∃ y ∈ c'.world.db.runs.rows, y = x ∨
      (x.status = .blocked ∧ Releases x.linearIssueId ls ∧ ∃ t, y = x.released t) := by
  induction h with
  | refl => exact ⟨x, hx, Or.inl rfl⟩
  | @snoc ls l m c' hr hstep ih =>
      have hm := run_consistent hr hc
      obtain ⟨y, hy, hxy⟩ := ih
      have hys : y.status ≠ .running := by
        rcases hxy with rfl | ⟨-, -, t, rfl⟩
        · exact hs
        · simp [AgentRun.released]
      -- The call of the last step leaves `y` alone, or is the operator's release.
      have hlast : ∃ z ∈ c'.world.db.runs.rows, z = y ∨ (y.status = .blocked ∧
          l = .env (.store (.release y.linearIssueId)) ∧ ∃ t, z = y.released t) := by
        rcases step_db hstep with heq | ⟨op, hop, heq⟩
        · exact ⟨y, by rw [heq]; exact hy, Or.inl rfl⟩
        · rw [heq]
          obtain ⟨z, hz, hyz⟩ := ended_row_apply hm hy hys m.world.now op
          refine ⟨z, hz, ?_⟩
          rcases hyz with hzy | ⟨hb, t, ht, hzy⟩
          · exact Or.inl hzy
          · refine Or.inr ⟨hb, ?_, t, hzy⟩
            obtain ⟨-, rfl⟩ := Prod.mk.inj (List.mem_singleton.1 ht)
            cases hop
            rfl
      obtain ⟨z, hz, hyz⟩ := hlast
      refine ⟨z, hz, ?_⟩
      rcases hxy with rfl | ⟨hb, hrel, t, rfl⟩
      · rcases hyz with rfl | ⟨hb, hl, t, rfl⟩
        · exact Or.inl rfl
        · exact Or.inr ⟨hb, List.mem_append_right _ (by simp [hl]), t, rfl⟩
      · rcases hyz with rfl | ⟨hb', -⟩
        · exact Or.inr ⟨hb, List.mem_append_left _ hrel, t, rfl⟩
        · exact absurd hb' (by simp [AgentRun.released])

/-! ## Runs along an interleaving -/

/-- Run `r` of issue `i` has been claimed at some time. -/
def Db.HasRun (db : Db) (r i : String) : Prop :=
  ∃ x ∈ db.runs.rows, x.runId = r ∧ x.linearIssueId = i

/-- Run `r` has ended. -/
def Db.Ended (db : Db) (r : String) : Prop :=
  ∃ x ∈ db.runs.rows, x.runId = r ∧ x.status ≠ .running

/-- Rows are never deleted, and keep their ids. -/
theorem hasRun_apply {db : Db} (hc : db.Consistent) {r i : String} (h : db.HasRun r i)
    (now : Timestamp) (op : StoreOp) : (op.apply now db).HasRun r i := by
  obtain ⟨x, hx, hid, hi⟩ := h
  cases apply_effect hc now op with
  | idle hruns hlocks => exact ⟨x, by rw [hruns]; exact hx, hid, hi⟩
  | started hop hruns hlocks =>
      exact ⟨x, by rw [hruns]; exact List.mem_append_left _ hx, hid, hi⟩
  | touched hop hl hlive hruns hlocks =>
      refine ⟨_, by rw [hruns]; exact List.mem_map_of_mem hx, ?_⟩
      split <;> exact ⟨hid, hi⟩
  | ended hop hl hf hfs hruns hlocks =>
      refine ⟨_, by rw [hruns]; exact List.mem_map_of_mem hx, ?_⟩
      split
      · exact ⟨(hf x).1.trans hid, (hf x).2.trans hi⟩
      · exact ⟨hid, hi⟩
  | released hop hruns hlocks =>
      refine ⟨_, by rw [hruns]; exact List.mem_map_of_mem hx, ?_⟩
      split <;> exact ⟨hid, hi⟩

theorem run_hasRun {c c' : SysConfig π α} {ls : List (SysLabel π)}
    (h : (system net).Run c ls c') (hc : c.world.db.Consistent) {r i : String}
    (hr : c.world.db.HasRun r i) : c'.world.db.HasRun r i := by
  refine (h.invariant (fun m => m.world.db.Consistent ∧ m.world.db.HasRun r i) ⟨hc, hr⟩
    fun {m l m'} _ hs hm => ⟨step_consistent hs hm.1, ?_⟩).2
  rcases step_db hs with heq | ⟨op, -, heq⟩
  · rw [heq]
    exact hm.2
  · rw [heq]
    exact hasRun_apply hm.1 hm.2 _ op

/-- **A run that has ended stays ended.** -/
theorem run_ended {c c' : SysConfig π α} {ls : List (SysLabel π)}
    (h : (system net).Run c ls c') (hc : c.world.db.Consistent) {r : String}
    (hr : c.world.db.Ended r) : c'.world.db.Ended r := by
  obtain ⟨x, hx, hid, hs⟩ := hr
  obtain ⟨y, hy, rfl | ⟨-, -, t, rfl⟩⟩ := run_ended_row h hc hx hs
  · exact ⟨y, hy, hid, hs⟩
  · exact ⟨_, hy, hid, by simp [AgentRun.released]⟩

/-! ## Locks along an interleaving -/

/-- Run `r` holds the lock of issue `i`. -/
def Db.Holds (db : Db) (r i : String) : Prop := ∃ l ∈ db.locks.rows, l.isOf r i = true

/-- An ended run holds no lock. -/
theorem not_holds_of_ended {db : Db} (hc : db.Consistent) {r i : String} (h : db.Ended r) :
    ¬ db.Holds r i := by
  rintro ⟨l, hl, hof⟩
  obtain ⟨x, hx, hid, hs⟩ := h
  have hfree := not_isOf_of_ended hc hx hs i l hl
  rw [hid, hof] at hfree
  cases hfree

/-- A run without its lock has ended. -/
theorem ended_of_not_holds {db : Db} (hc : db.Consistent) {r i : String} (hr : db.HasRun r i)
    (h : ¬ db.Holds r i) : db.Ended r := by
  obtain ⟨x, hx, rfl, rfl⟩ := hr
  refine ⟨x, hx, rfl, fun hs => h ?_⟩
  obtain ⟨l, hl, hof⟩ := hc.lock_of_run x hx hs
  exact ⟨l, hl, hof⟩

/-- The step finishes run `r` of issue `i`, or recovers the issue. -/
def EndsLock (r i : String) : SysLabel π → Prop
  | .call _ ⟨.finish c _ _, _⟩ => c.runId = r ∧ c.linearIssueId = i
  | .call _ ⟨.recover j, _⟩ => j = i
  | .env (.store (.finish r' j _ _)) => r' = r ∧ j = i
  | .env (.store (.recover j)) => j = i
  | _ => False

/-- A call that neither finishes the run nor recovers its issue leaves it the lock, and extends
it only where it has not expired. -/
theorem lock_apply {db : Db} (hc : db.Consistent) {r i : String} {l : AgentExecutionLock}
    (hl : l ∈ db.locks.rows) (hof : l.isOf r i = true) {op : StoreOp}
    (hfin : ∀ text arg, op ≠ .finish r i text arg) (hrec : op ≠ .recover i) (now : Timestamp) :
    ∃ l' ∈ (op.apply now db).locks.rows, l'.isOf r i = true ∧
      (l'.expiresAt = l.expiresAt ∨ now < l.expiresAt) := by
  obtain ⟨hli, hlr⟩ := isOf_iff.1 hof
  cases apply_effect hc now op with
  | idle hruns hlocks => exact ⟨l, by rw [hlocks]; exact hl, hof, Or.inl rfl⟩
  | started hop hruns hlocks =>
      exact ⟨l, by rw [hlocks]; exact List.mem_append_left _ hl, hof, Or.inl rfl⟩
  | @touched l' ttl hop hl' hlive hruns hlocks =>
      refine ⟨_, by rw [hlocks]; exact List.mem_map_of_mem hl, ?_⟩
      by_cases hext : l.isLive now l'.runId l'.linearIssueId = true
      · rw [if_pos hext]
        simp only [AgentExecutionLock.isLive, Bool.and_eq_true, decide_eq_true_eq] at hext
        exact ⟨hof, Or.inr hext.2⟩
      · rw [if_neg hext]
        exact ⟨hof, Or.inl rfl⟩
  | @ended l' f hop hl' hf hfs hruns hlocks =>
      refine ⟨l, ?_, hof, Or.inl rfl⟩
      rw [hlocks, List.mem_filter]
      refine ⟨hl, ?_⟩
      by_contra hne
      simp only [Bool.not_eq_true', Bool.not_eq_false, isOf_iff] at hne
      rcases hop with ⟨text, arg, rfl⟩ | ⟨rfl, -⟩
      · exact hfin text arg (by rw [← hne.1, ← hne.2, hli, hlr])
      · exact hrec (by rw [← hne.1, hli])
  | released hop hruns hlocks => exact ⟨l, by rw [hlocks]; exact hl, hof, Or.inl rfl⟩

omit [DecidableEq π] in
theorem StepCalls.not_ends {w : World π} {l : SysLabel π} {op : StoreOp} {r i : String}
    (h : StepCalls w l op) (hl : ¬ EndsLock r i l) :
    (∀ text arg, op ≠ .finish r i text arg) ∧ op ≠ .recover i := by
  refine ⟨fun text arg heq => hl ?_, fun heq => hl ?_⟩
  · subst heq
    cases h <;> exact ⟨rfl, rfl⟩
  · subst heq
    cases h <;> exact rfl

/-- **A lock stays until its run is finished or recovered.** -/
theorem run_holds {c c' : SysConfig π α} {ls : List (SysLabel π)} (h : (system net).Run c ls c')
    (hc : c.world.db.Consistent) {r i : String} (hlock : c.world.db.Holds r i)
    (hls : ∀ l ∈ ls, ¬ EndsLock r i l) : c'.world.db.Holds r i := by
  refine (h.invariant (fun m => m.world.db.Consistent ∧ m.world.db.Holds r i) ⟨hc, hlock⟩
    fun {m l m'} hl hs hm => ⟨step_consistent hs hm.1, ?_⟩).2
  rcases step_db hs with heq | ⟨op, hop, heq⟩
  · rw [heq]
    exact hm.2
  · rw [heq]
    obtain ⟨hfin, hrec⟩ := hop.not_ends (hls l hl)
    obtain ⟨lock, hlock, hof⟩ := hm.2
    obtain ⟨lock', hlock', hof', -⟩ := lock_apply hm.1 hlock hof hfin hrec m.world.now
    exact ⟨lock', hlock', hof'⟩

/-! ## Expired locks along an interleaving -/

/-- Run `r` holds the lock of issue `i`, which has expired. -/
def World.Expired (w : World π) (r i : String) : Prop :=
  ∃ l ∈ w.db.locks.rows, l.isOf r i = true ∧ l.expiresAt ≤ w.now

/-- Time does not go back. -/
theorem step_now {m m' : SysConfig π α} {l : SysLabel π} (h : (system net).Step m l m') :
    m.world.now ≤ m'.world.now := by
  cases h with
  | @call p call k r w hp ha =>
      show m.world.now ≤ w.now
      cases call with
      | entropy | lockRejected | dispatch | recordBlocked =>
          have heq : w = m.world := ha
          rw [heq]
      | startHeartbeat c ttl =>
          have heq : w = m.world.withPulse p ⟨c, ttl, [], false⟩ := ha
          rw [heq]
          exact Nat.le_refl _
      | joinHeartbeat c =>
          obtain ⟨-, rfl⟩ := ha
          unfold World.joined
          split <;> exact Nat.le_refl _
      | moveStatus i s => rcases ha with rfl | ⟨rfl, -⟩ <;> exact Nat.le_refl _
      | readIssues =>
          obtain ⟨rfl, -⟩ := ha
          exact Nat.le_refl _
      | claim | event | finish | recover =>
          obtain ⟨d, -, -, heq⟩ := ha
          rw [heq]
          exact Nat.le_refl _
  | @env x w hs =>
      show m.world.now ≤ w.now
      cases x with
      | tick micros =>
          have heq : w = { m.world with now := m.world.now + micros } := hs
          rw [heq]
          exact Nat.le_add_right _ _
      | edit i s =>
          have heq : w = { m.world with linear := m.world.linear.setStatus i s } := hs
          rw [heq]
      | store op =>
          have heq : w = m.world.withDb (op.apply m.world.now m.world.db) := hs
          rw [heq]
          exact Nat.le_refl _
      | beat q =>
          obtain ⟨pulse, -, -, d, r, db, -, rfl⟩ := hs
          exact Nat.le_refl _

/-- **An expired lock stays expired**, heartbeats or not, until its run is finished or
recovered. -/
theorem run_expired {c c' : SysConfig π α} {ls : List (SysLabel π)}
    (h : (system net).Run c ls c') (hc : c.world.db.Consistent) {r i : String}
    (hlock : c.world.Expired r i) (hls : ∀ l ∈ ls, ¬ EndsLock r i l) : c'.world.Expired r i := by
  refine (h.invariant (fun m => m.world.db.Consistent ∧ m.world.Expired r i) ⟨hc, hlock⟩
    fun {m l m'} hl hs hm => ⟨step_consistent hs hm.1, ?_⟩).2
  obtain ⟨lock, hlock, hof, hexp⟩ := hm.2
  rcases step_db hs with heq | ⟨op, hop, heq⟩
  · exact ⟨lock, by rw [heq]; exact hlock, hof, hexp.trans (step_now hs)⟩
  · obtain ⟨hfin, hrec⟩ := hop.not_ends (hls l hl)
    obtain ⟨lock', hlock', hof', htime⟩ := lock_apply hm.1 hlock hof hfin hrec m.world.now
    refine ⟨lock', by rw [heq]; exact hlock', hof', ?_⟩
    rcases htime with htime | htime
    · rw [htime]
      exact hexp.trans (step_now hs)
    · exact absurd hexp (Nat.not_le_of_lt htime)

/-! ## Linear along an interleaving -/

/-- The step moves issue `i` to status `s`, or tries to. -/
def MovesTo (i s : String) : SysLabel π → Prop
  | .call _ ⟨.moveStatus j t, _⟩ => j = i ∧ t = s
  | .env (.edit j t) => j = i ∧ t = s
  | _ => False

/-- A step leaves Linear alone, or is a move that it carries out. -/
theorem step_linear {m m' : SysConfig π α} {l : SysLabel π} (h : (system net).Step m l m') :
    m'.world.linear = m.world.linear ∨
      ∃ i s, MovesTo i s l ∧ m'.world.linear = m.world.linear.setStatus i s := by
  cases h with
  | @call p call k r w hp ha =>
      cases call with
      | entropy | lockRejected | dispatch | recordBlocked | startHeartbeat =>
          have heq : w = _ := ha
          rw [heq]
          exact Or.inl rfl
      | joinHeartbeat c =>
          obtain ⟨-, rfl⟩ := ha
          left
          unfold World.joined
          split <;> rfl
      | moveStatus i s =>
          rcases ha with rfl | ⟨rfl, -⟩
          · exact Or.inr ⟨i, s, ⟨rfl, rfl⟩, rfl⟩
          · exact Or.inl rfl
      | readIssues =>
          obtain ⟨rfl, -⟩ := ha
          exact Or.inl rfl
      | claim | event | finish | recover =>
          obtain ⟨d, -, -, heq⟩ := ha
          left
          show w.linear = _
          rw [heq]
          rfl
  | @env x w hs =>
      cases x with
      | tick | store =>
          have heq : w = _ := hs
          rw [heq]
          exact Or.inl rfl
      | edit i s =>
          have heq : w = { m.world with linear := m.world.linear.setStatus i s } := hs
          rw [heq]
          exact Or.inr ⟨i, s, ⟨rfl, rfl⟩, rfl⟩
      | beat q =>
          obtain ⟨pulse, -, -, d, r, db, -, rfl⟩ := hs
          exact Or.inl rfl

/-- An issue that nobody moves stays as it is. -/
theorem run_snapshot {c c' : SysConfig π α} {ls : List (SysLabel π)}
    (h : (system net).Run c ls c') {s : LinearIssueSnapshot} (hs : s ∈ c.world.linear.issues)
    (hls : ∀ l ∈ ls, ∀ status, ¬ MovesTo s.identifier status l) :
    s ∈ c'.world.linear.issues := by
  refine h.invariant (fun m => s ∈ m.world.linear.issues) hs fun {m l m'} hl hstep hm => ?_
  rcases step_linear hstep with heq | ⟨i, status, hmoves, heq⟩
  · rw [heq]
    exact hm
  · rw [heq]
    have hne : s.identifier ≠ i := fun hi => hls l hl status (hi ▸ hmoves)
    have hsame : s.setStatus i status = s := if_neg hne
    exact hsame ▸ List.mem_map_of_mem hm

/-- What a read answers. -/
theorem step_read {p : π} {m m' : SysConfig π α} {snapshots : List LinearIssueSnapshot}
    (h : (system net).Step m (.call p ⟨.readIssues, .ok snapshots⟩) m') :
    snapshots.Perm m.world.linear.issues := by
  cases h with
  | call hp ha => exact ha.2

/-- A read has every issue once. -/
theorem nodup_of_read {m m' : SysConfig π α} {ls : List (SysLabel π)}
    (h : (system net).Run m ls m') {p : π} {snapshots : List LinearIssueSnapshot}
    (hread : .call p ⟨.readIssues, .ok snapshots⟩ ∈ ls) :
    (snapshots.map (·.identifier)).Nodup := by
  obtain ⟨x, y, hstep⟩ := h.step_of_mem hread
  exact ((step_read hstep).map _).nodup_iff.2 x.world.linear.nodup

/-! ## The methods that take and give back the lock -/

/-- A claim that returns has inserted the run, running, and its lock. -/
theorem supabase_claim_ok {d : Delivery} {now : Timestamp} {c : ExecutionContext} {ttl : Int}
    {db db' : Db} (h : SupabaseStore.claim d now c ttl db = (.ok (), db')) :
    ∃ startedAt heartbeatAt,
      db'.runs.rows = db.runs.rows ++ [((c.claimArgs ttl).queuedRun startedAt).running now] ∧
      db'.locks.rows = db.locks.rows ++ [(c.claimArgs ttl).lock now heartbeatAt] ∧
      db'.events = db.events ++ (c.claimArgs ttl).startEvents now := by
  cases d with
  | refused f => cases congrArg Prod.fst h
  | lost f => cases congrArg Prod.fst h
  | answered =>
      rcases claim_cases now (c.claimArgs ttl) db with
        ⟨-, hc⟩ | ⟨-, -, db'', hc, hruns, hlocks, hevents⟩ | ⟨-, -, hc⟩
      · simp [SupabaseStore.claim, post, StoreOp.txn, hc, SupabaseStore.orRaise] at h
      · simp only [SupabaseStore.claim, post, StoreOp.txn, hc, SupabaseStore.orRaise,
          Prod.mk.injEq, true_and] at h
        subst h
        exact ⟨_, _, hruns, hlocks, hevents⟩
      · simp [SupabaseStore.claim, post, StoreOp.txn, hc, SupabaseStore.orRaise] at h

/-- A claim returns only where nobody holds the lock of the issue. -/
theorem not_holds_before_claim {d : Delivery} {now : Timestamp} {c : ExecutionContext} {ttl : Int}
    {db db' : Db} (h : SupabaseStore.claim d now c ttl db = (.ok (), db')) (r : String) :
    ¬ db.Holds r c.linearIssueId := by
  intro ⟨l, hl, hof⟩
  obtain ⟨_, _, -, hlocks, -⟩ := supabase_claim_ok h
  have hnodup := db'.locks.unique
  rw [hlocks, List.flatMap_append, List.nodup_append] at hnodup
  have hold : c.linearIssueId ∈ db.locks.rows.flatMap AgentExecutionLock.keys :=
    List.mem_flatMap.2 ⟨l, hl, List.mem_singleton.2 (isOf_iff.1 hof).1.symm⟩
  exact hnodup.2.2 _ hold c.linearIssueId (by simp [AgentExecutionLock.keys, ClaimArgs.lock,
    ExecutionContext.claimArgs]) rfl

/-- A claim that returns has the run in the table. -/
theorem hasRun_of_claim {d : Delivery} {now : Timestamp} {c : ExecutionContext} {ttl : Int}
    {db db' : Db} (h : SupabaseStore.claim d now c ttl db = (.ok (), db')) :
    db'.HasRun c.runId c.linearIssueId := by
  obtain ⟨_, _, hruns, -⟩ := supabase_claim_ok h
  exact ⟨_, by rw [hruns]; exact List.mem_append_right _ (List.mem_singleton_self _), rfl, rfl⟩

/-- A finish by the owner of the lock that reaches the database and is answered goes through. -/
theorem supabase_finish_owner {c : ExecutionContext} {s : String} {db : Db}
    (hc : db.Consistent) (hown : db.Holds c.runId c.linearIssueId)
    (hs : (finalStatus s).isSome) (now : Timestamp) (fields : Mapping String) :
    (SupabaseStore.finish .answered now c s fields db).1 = .ok () := by
  obtain ⟨l, hl, hof⟩ := hown
  obtain ⟨hli, hlr⟩ := isOf_iff.1 hof
  obtain ⟨x, hx, hxid, hxi, hxs⟩ := hc.run_of_lock l hl
  rcases finish_cases now c.runId c.linearIssueId s (.object (jsonFields fields)) db with
    ⟨hv, -⟩ | ⟨hv, -⟩ | ⟨-, -, hnone, -⟩ | ⟨_, _, -, -, _, -, -, _, -, -, db', h, -⟩
  · simp [hv] at hs
  · cases hv
  · rcases hnone with hnone | hnone
    · simp [hnone l hl] at hof
    · have hfin := hnone x hx
      simp [AgentRun.isFinishable, AgentRun.isAtWork, hxid, hxi, hxs, hli, hlr] at hfin
  · simp [SupabaseStore.finish, post, StoreOp.txn, h, SupabaseStore.orRaise]

/-- A finish that returns was called by the owner of the lock, and has ended the run. -/
theorem supabase_finish_ok {d : Delivery} {now : Timestamp} {c : ExecutionContext} {s : String}
    {fields : Mapping String} {db db' : Db}
    (h : SupabaseStore.finish d now c s fields db = (.ok (), db')) :
    db.Holds c.runId c.linearIssueId ∧ db'.Ended c.runId := by
  cases d with
  | refused f => cases congrArg Prod.fst h
  | lost f => cases congrArg Prod.fst h
  | answered =>
  rcases finish_cases now c.runId c.linearIssueId s (.object (jsonFields fields)) db with
    ⟨-, hf⟩ | ⟨-, hf⟩ | ⟨-, -, -, hf⟩ |
      ⟨status, _, hs, -, l, hl, hof, x, hx, hfin, db'', hf, hruns, hlocks, -⟩
  · simp [SupabaseStore.finish, post, StoreOp.txn, hf, SupabaseStore.orRaise] at h
  · simp [SupabaseStore.finish, post, StoreOp.txn, hf, SupabaseStore.orRaise] at h
  · simp [SupabaseStore.finish, post, StoreOp.txn, hf, SupabaseStore.orRaise] at h
  · simp only [SupabaseStore.finish, post, StoreOp.txn, hf, SupabaseStore.orRaise,
      Prod.mk.injEq, true_and] at h
    subst h
    refine ⟨⟨l, hl, hof⟩, _, by rw [hruns]; exact List.mem_map_of_mem hx, ?_⟩
    rw [if_pos hfin]
    simp only [AgentRun.isFinishable, Bool.and_eq_true, decide_eq_true_eq] at hfin
    refine ⟨hfin.1.1, fun hrun => ?_⟩
    have hactive := finalStatus_not_active hs
    change status = .running at hrun
    simp [hrun] at hactive

end HermesRuntime
