import HermesRuntime.Closing
import HermesRuntime.RunRows

/-!
# The stored status of a run

A run that has ended keeps its status, and `completed` and `blocked` are stored by a finish only:
one that gets to the store while the run holds its lock, whether or not its answer comes back.

* `run_row_status` — a finish that was answered, at the end of an interleaving.
* `run_lacksStatus`, `claimed_lacksStatus` — a run that nobody finishes as something.
* `stored_iff_lands` — a run is stored with the status of a finish exactly when that lands.
-/

namespace HermesRuntime

open Effects Semantics

variable {π : Type} [DecidableEq π] {net : Net} {α : Type}

/-! ## The status in the row -/

/-- Run `r` of issue `i` is stored with a status. -/
def Db.HasStatus (db : Db) (r i : String) (status : RunStatus) : Prop :=
  ∃ x ∈ db.runs.rows, x.runId = r ∧ x.linearIssueId = i ∧ x.status = status

instance (db : Db) (r i : String) (status : RunStatus) : Decidable (db.HasStatus r i status) :=
  inferInstanceAs (Decidable (∃ x ∈ _, _))

/-- Run `r` of issue `i` is stored with another status. -/
def Db.LacksStatus (db : Db) (r i : String) (status : RunStatus) : Prop :=
  ∃ x ∈ db.runs.rows, x.runId = r ∧ x.linearIssueId = i ∧ x.status ≠ status

/-- A run has one status. -/
theorem status_unique {db : Db} {r i : String} {s s' : RunStatus} (h : db.HasStatus r i s)
    (h' : db.HasStatus r i s') : s = s' := by
  obtain ⟨x, hx, hid, -, rfl⟩ := h
  obtain ⟨y, hy, hid', -, rfl⟩ := h'
  rw [eq_of_runId db hx hy (hid.trans hid'.symm)]

theorem not_hasStatus_of_lacks {db : Db} {r i : String} {status : RunStatus}
    (h : db.LacksStatus r i status) : ¬ db.HasStatus r i status := by
  obtain ⟨x, hx, hid, hi, hs⟩ := h
  exact fun hstored => hs (status_unique ⟨x, hx, hid, hi, rfl⟩ hstored)

theorem finalStatus_inj {s s' : String} {status : RunStatus} (h : finalStatus s = some status)
    (h' : finalStatus s' = some status) : s = s' := by
  unfold finalStatus at h h'
  split at h <;> cases h <;> split at h' <;> first | rfl | cases h'

/-- Only a finish as `s` stores `status`: no recovery and no release does. -/
structure ByFinish (s : String) (status : RunStatus) : Prop where
  final : finalStatus s = some status
  not_failed : status ≠ .failed
  not_canceled : status ≠ .canceled

theorem byFinish_completed : ByFinish "completed" .completed := ⟨rfl, by simp, by simp⟩

theorem byFinish_blocked : ByFinish "blocked" .blocked := ⟨rfl, by simp, by simp⟩

/-! ## A run keeps its status -/

/-- A finish that returns stores its status. -/
theorem supabase_finish_status {d : Delivery} {now : Timestamp} {c : ExecutionContext} {s : String}
    {fields : Mapping String} {db db' : Db}
    (h : SupabaseStore.finish d now c s fields db = (.ok (), db')) :
    ∃ status, finalStatus s = some status ∧ db'.HasStatus c.runId c.linearIssueId status := by
  cases d with
  | refused f => cases congrArg Prod.fst h
  | lost f => cases congrArg Prod.fst h
  | answered =>
  rcases finish_cases now c.runId c.linearIssueId s (.object (jsonFields fields)) db with
    ⟨-, hf⟩ | ⟨-, hf⟩ | ⟨-, -, -, hf⟩ |
      ⟨status, _, hs, -, l, hl, hof, x, hx, hfin, db'', hf, hruns, -, -⟩
  · simp [SupabaseStore.finish, post, StoreOp.txn, hf, SupabaseStore.orRaise] at h
  · simp [SupabaseStore.finish, post, StoreOp.txn, hf, SupabaseStore.orRaise] at h
  · simp [SupabaseStore.finish, post, StoreOp.txn, hf, SupabaseStore.orRaise] at h
  · simp only [SupabaseStore.finish, post, StoreOp.txn, hf, SupabaseStore.orRaise,
      Prod.mk.injEq, true_and] at h
    subst h
    refine ⟨status, hs, _, by rw [hruns]; exact List.mem_map_of_mem hx, ?_⟩
    rw [if_pos hfin]
    simp only [AgentRun.isFinishable, Bool.and_eq_true, decide_eq_true_eq] at hfin
    exact ⟨hfin.1.1, hfin.1.2, rfl⟩

/-- A final status is kept, unless the operator releases a blocked run. -/
theorem run_hasStatus {c c' : SysConfig π α} {ls : List (SysLabel π)}
    (h : (system net).Run c ls c') (hc : c.world.db.Consistent) {r i s : String}
    {status : RunStatus} (hs : finalStatus s = some status)
    (hkept : status = .blocked → ¬ Releases i ls) (hstored : c.world.db.HasStatus r i status) :
    c'.world.db.HasStatus r i status := by
  obtain ⟨x, hx, hid, hi, hxs⟩ := hstored
  have hended : x.status ≠ .running := by
    rw [hxs]
    exact (finalStatus_not_active hs).2.1
  obtain ⟨y, hy, rfl | ⟨hblocked, hreleased, -⟩⟩ := run_ended_row h hc hx hended
  · exact ⟨y, hy, hid, hi, hxs⟩
  · rw [hi] at hreleased
    exact absurd hreleased (hkept (hxs.symm.trans hblocked))

/-- **The status a finish stored is kept**, unless the operator releases a blocked run. -/
theorem run_row_status {p : π} {m₀ m' : SysConfig π α} {ls : List (SysLabel π)}
    {c : ExecutionContext} {s : String} {fields : Mapping String} {status : RunStatus}
    (hcons : m₀.world.db.Consistent) (hrun : (system net).Run m₀ ls m')
    (hfin : (⟨.finish c s fields, .ok ()⟩ : CallEvent) ∈ eventsOf p ls)
    (hs : finalStatus s = some status) (hkept : ¬ Releases c.linearIssueId ls) :
    m'.world.db.HasStatus c.runId c.linearIssueId status := by
  obtain ⟨pre, post, rfl⟩ := List.append_of_mem (mem_eventsOf.1 hfin)
  obtain ⟨m₁, m₂, hr₁, hstep, hr₂⟩ := hrun.split_at
  have hstored : m₂.world.db.HasStatus c.runId c.linearIssueId status := by
    cases hstep with
    | call hp ha =>
        obtain ⟨d, -, hans, -⟩ := ha
        obtain ⟨status', hs', hstored⟩ := supabase_finish_status hans
        rw [hs] at hs'
        cases hs'
        exact hstored
  refine run_hasStatus hr₂ (step_consistent hstep (run_consistent hr₁ hcons)) hs (fun _ hreleased =>
    hkept ?_) hstored
  exact List.mem_append_right _ (List.mem_cons_of_mem _ hreleased)

/-! ## A run that nobody finishes as something -/

/-- The step finishes run `r` of issue `i` as `s`. -/
def FinishesAs (r i s : String) : SysLabel π → Prop
  | .call _ ⟨.finish c text _, _⟩ => c.runId = r ∧ c.linearIssueId = i ∧ text = s
  | .env (.store (.finish r' j text _)) => r' = r ∧ j = i ∧ text = s
  | _ => False

/-- A call that does not finish the run as `s` does not store its status. -/
theorem lacksStatus_apply {db : Db} {r i s : String} {status : RunStatus} (hs : ByFinish s status)
    (h : db.LacksStatus r i status) {op : StoreOp} (hop : ∀ arg, op ≠ .finish r i s arg)
    (now : Timestamp) : (op.apply now db).LacksStatus r i status := by
  obtain ⟨x, hx, rfl, rfl, hlacks⟩ := h
  rcases rows_apply now op db with ⟨y, -, hrows⟩ | ⟨f, hrows, hf⟩
  · exact ⟨x, by rw [hrows]; exact List.mem_append_left _ hx, rfl, rfl, hlacks⟩
  · refine ⟨f x, by rw [hrows]; exact List.mem_map_of_mem hx, ?_⟩
    generalize hy : f x = y
    have hrewrites : Rewrites op now x y := hy ▸ hf x
    cases hrewrites with
    | kept | beaten => exact ⟨rfl, rfl, hlacks⟩
    | finished hfin hstatus =>
        refine ⟨rfl, rfl, fun hsame => ?_⟩
        have htext := finalStatus_inj (hstatus.trans (congrArg some hsame)) hs.final
        exact hop _ (htext ▸ hfin)
    | expired => exact ⟨rfl, rfl, hs.not_failed.symm⟩
    | released => exact ⟨rfl, rfl, hs.not_canceled.symm⟩

/-- **A run that nobody finishes as `s` is not stored so.** -/
theorem run_lacksStatus {c c' : SysConfig π α} {ls : List (SysLabel π)}
    (h : (system net).Run c ls c') {r i s : String} {status : RunStatus} (hs : ByFinish s status)
    (hr : c.world.db.LacksStatus r i status) (hls : ∀ l ∈ ls, ¬ FinishesAs r i s l) :
    c'.world.db.LacksStatus r i status := by
  refine h.invariant (fun m => m.world.db.LacksStatus r i status) hr fun {m l m'} hl hstep hm => ?_
  rcases step_db hstep with heq | ⟨op, hop, heq⟩
  · rw [heq]
    exact hm
  · rw [heq]
    refine lacksStatus_apply hs hm (fun arg hfin => hls l hl ?_) _
    subst hfin
    cases hop <;> exact ⟨rfl, rfl, rfl⟩

/-- A claimed run that nobody finishes as `s` is not stored so. -/
theorem claimed_lacksStatus {p : π} {m₀ m' : SysConfig π α} {ls : List (SysLabel π)}
    {c : ExecutionContext} {ttl : Int} {s : String} {status : RunStatus}
    (hrun : (system net).Run m₀ ls m') (hs : ByFinish s status)
    (hclaim : (⟨.claim c ttl, .ok ()⟩ : CallEvent) ∈ eventsOf p ls)
    (hls : ∀ l ∈ ls, ¬ FinishesAs c.runId c.linearIssueId s l) :
    m'.world.db.LacksStatus c.runId c.linearIssueId status := by
  obtain ⟨pre, post, rfl⟩ := List.append_of_mem (mem_eventsOf.1 hclaim)
  obtain ⟨m₁, m₂, -, hstep, hr₂⟩ := hrun.split_at
  have hlacks : m₂.world.db.LacksStatus c.runId c.linearIssueId status := by
    cases hstep with
    | call hp ha =>
        obtain ⟨d, -, hans, -⟩ := ha
        obtain ⟨_, _, hruns, -⟩ := supabase_claim_ok hans
        exact ⟨_, by rw [hruns]; exact List.mem_append_right _ (List.mem_singleton_self _), rfl,
          rfl, (finalStatus_not_active hs.final).2.1.symm⟩
  exact run_lacksStatus hr₂ hs hlacks fun l hl => hls l (by simp [hl])

/-- A claimed run that `p` does not finish as `s`, nor anybody else, is not stored so. -/
theorem not_hasStatus_of_unfinished {p : π} {m₀ m' : SysConfig π α} {ls : List (SysLabel π)}
    {c : ExecutionContext} {ttl : Int} {s : String} {status : RunStatus}
    (hrun : (system net).Run m₀ ls m') (hs : ByFinish s status)
    (hclaim : (⟨.claim c ttl, .ok ()⟩ : CallEvent) ∈ eventsOf p ls)
    (honly : ∀ l ∈ ls, FinishesAs c.runId c.linearIssueId s l → ∃ ev, l = .call p ev)
    (hnone : ∀ sr ∈ finishes (eventsOf p ls), sr.1 ≠ s) :
    ¬ m'.world.db.HasStatus c.runId c.linearIssueId status := by
  refine not_hasStatus_of_lacks (claimed_lacksStatus hrun hs hclaim fun l hl hfinishes => ?_)
  obtain ⟨⟨call, r⟩, rfl⟩ := honly l hl hfinishes
  cases call
  case finish c' text fields =>
    exact hnone (text, r) (mem_finishes.2 ⟨c', fields, mem_eventsOf.2 hl⟩) hfinishes.2.2
  all_goals exact hfinishes

/-! ## Finishes that land -/

/-- The request gets to the store, whether or not its answer comes back. -/
def Delivery.arrives : Delivery → Bool
  | .answered | .lost _ => true
  | .refused _ => false

/-- Whenever `p` finishes the run as `s`, it holds its lock, and the request gets to the store. -/
def FinishLands (net : Net) (p : π) (c : ExecutionContext) (s : String) (m₀ : SysConfig π α)
    (ls : List (SysLabel π)) (m' : SysConfig π α) : Prop :=
  ∀ fields r m₁ m₂, (system net).Passes m₀ ls m' m₁ (.call p ⟨.finish c s fields, r⟩) m₂ →
    m₁.world.db.Holds c.runId c.linearIssueId ∧ ∃ d, net (.finish c s fields) d ∧
      d.arrives = true ∧
      SupabaseStore.finish d m₁.world.now c s fields m₁.world.db = (r, m₂.world.db)

theorem finishLands_of_unfinished {p : π} {m₀ m' : SysConfig π α} {ls : List (SysLabel π)}
    {c : ExecutionContext} {s : String} (hnone : ∀ sr ∈ finishes (eventsOf p ls), sr.1 ≠ s) :
    FinishLands net p c s m₀ ls m' := by
  rintro fields r m₁ m₂ ⟨pre, post, rfl, -⟩
  have hfin : (⟨.finish c s fields, r⟩ : CallEvent) ∈
      eventsOf p (pre ++ .call p ⟨.finish c s fields, r⟩ :: post) := mem_eventsOf.2 (by simp)
  exact absurd rfl (hnone (s, r) (mem_finishes.2 ⟨c, fields, hfin⟩))

/-- A finish that gets to the store is carried out there. -/
theorem supabase_finish_db {d : Delivery} (hd : d.arrives = true) (now : Timestamp)
    (c : ExecutionContext) (s : String) (fields : Mapping String) (db : Db) :
    (SupabaseStore.finish d now c s fields db).2 =
      (StoreOp.finish c.runId c.linearIssueId s (.object (jsonFields fields))).apply now db := by
  cases d with
  | refused f => cases hd
  | lost f => rfl
  | answered =>
      unfold SupabaseStore.finish
      generalize StoreOp.finish c.runId c.linearIssueId s (.object (jsonFields fields)) = op
      unfold post
      cases h : op.txn now db with
      | ok result => rw [StoreOp.apply_ok op h]
      | error e => rw [StoreOp.apply_error op h]

/-- A finish of the owner of the lock that gets to the store stores its status. -/
theorem supabase_finish_stores {d : Delivery} {now : Timestamp} {c : ExecutionContext} {s : String}
    {fields : Mapping String} {db db' : Db} {r : Except Exc Unit} {status : RunStatus}
    (hd : d.arrives = true) (hc : db.Consistent) (hown : db.Holds c.runId c.linearIssueId)
    (hs : finalStatus s = some status)
    (h : SupabaseStore.finish d now c s fields db = (r, db')) :
    db'.HasStatus c.runId c.linearIssueId status := by
  have hdb : db' = (SupabaseStore.finish .answered now c s fields db).2 := by
    rw [supabase_finish_db rfl, ← supabase_finish_db hd, h]
  have hok := supabase_finish_owner hc hown (by rw [hs]; rfl) now fields
  obtain ⟨status', hs', hstored⟩ := supabase_finish_status (Prod.ext hok hdb.symm)
  rw [hs] at hs'
  cases hs'
  exact hstored

/-- Any other finish changes nothing. -/
theorem supabase_finish_missed {d : Delivery} {now : Timestamp} {c : ExecutionContext} {s : String}
    {fields : Mapping String} {db db' : Db} {r : Except Exc Unit}
    (h : SupabaseStore.finish d now c s fields db = (r, db'))
    (hmissed : ¬ (db.Holds c.runId c.linearIssueId ∧ d.arrives = true)) : db' = db := by
  have hdb : db' = (SupabaseStore.finish d now c s fields db).2 := by rw [h]
  cases hd : d.arrives with
  | false =>
      cases d with
      | refused f => exact hdb
      | lost | answered => cases hd
  | true =>
      rw [hdb, supabase_finish_db hd]
      generalize hop : StoreOp.finish c.runId c.linearIssueId s (.object (jsonFields fields)) = op
      have htxn : op.txn now db = hermesFinishRun now c.runId c.linearIssueId s
        (.object (jsonFields fields)) db := by rw [← hop]; rfl
      rcases finish_cases now c.runId c.linearIssueId s (.object (jsonFields fields)) db with
        ⟨-, hf⟩ | ⟨-, hf⟩ | ⟨-, -, -, hf⟩ | ⟨_, _, -, -, l, hl, hof, -⟩
      · rw [StoreOp.apply_error op (htxn.trans hf)]
      · rw [StoreOp.apply_error op (htxn.trans hf)]
      · rw [StoreOp.apply_ok op (htxn.trans hf)]
      · exact absurd ⟨⟨l, hl, hof⟩, hd⟩ hmissed

/-- A finish that does not land leaves the run without its status, where `p` makes it once and
nobody else does. -/
theorem lacksStatus_of_missed {p : π} {m₀ m' m₁ m₂ : SysConfig π α} {ls : List (SysLabel π)}
    {c : ExecutionContext} {ttl : Int} {s : String} {status : RunStatus} {fields : Mapping String}
    {r : Except Exc Unit} (hs : ByFinish s status)
    (hclaim : (⟨.claim c ttl, .ok ()⟩ : CallEvent) ∈ eventsOf p ls)
    (honly : ∀ l ∈ ls, FinishesAs c.runId c.linearIssueId s l → ∃ ev, l = .call p ev)
    (hone : ((finishes (eventsOf p ls)).map Prod.fst).count s ≤ 1)
    (hpasses : (system net).Passes m₀ ls m' m₁ (.call p ⟨.finish c s fields, r⟩) m₂)
    (hmissed : m₂.world.db = m₁.world.db) :
    m'.world.db.LacksStatus c.runId c.linearIssueId status := by
  obtain ⟨pre, post, rfl, hr₁, -, hr₂⟩ := hpasses
  have hevents : eventsOf p (pre ++ .call p ⟨.finish c s fields, r⟩ :: post) =
      eventsOf p pre ++ ⟨.finish c s fields, r⟩ :: eventsOf p post := by
    rw [← List.singleton_append, eventsOf_append, eventsOf_append]
    simp [eventsOf_singleton]
  -- It is the one finish as `s`, so there is none before it and none after it.
  have hnone : ∀ l ∈ pre ++ post, ¬ FinishesAs c.runId c.linearIssueId s l := by
    intro l hl hfinishes
    obtain ⟨⟨call, a⟩, rfl⟩ := honly l (by
      rcases List.mem_append.1 hl with hl | hl <;> simp [hl]) hfinishes
    cases call
    case finish c' text fields' =>
      obtain ⟨-, -, rfl⟩ := hfinishes
      have hmem : text ∈ (finishes (eventsOf p pre ++ eventsOf p post)).map Prod.fst := by
        rw [← eventsOf_append]
        exact List.mem_map_of_mem (mem_finishes.2 ⟨c', fields', mem_eventsOf.2 hl⟩)
      have hpos := List.count_pos_iff.2 hmem
      rw [hevents, finishes_append, finishes_finish, List.map_append, List.count_append,
        List.map_cons, List.count_cons_self] at hone
      rw [finishes_append, List.map_append, List.count_append] at hpos
      omega
    all_goals exact hfinishes
  have hpost : ∀ l ∈ post, ¬ FinishesAs c.runId c.linearIssueId s l := fun l hl =>
    hnone l (List.mem_append_right _ hl)
  rw [hevents, List.mem_append, List.mem_cons] at hclaim
  rcases hclaim with hclaim | heq | hclaim
  · have hlacks := claimed_lacksStatus hr₁ hs hclaim fun l hl => hnone l (List.mem_append_left _ hl)
    have hlacks₂ : m₂.world.db.LacksStatus c.runId c.linearIssueId status := by
      rw [hmissed]
      exact hlacks
    exact run_lacksStatus hr₂ hs hlacks₂ hpost
  · cases heq
  · exact claimed_lacksStatus hr₂ hs hclaim hpost

/-- **A run is stored with the status of a finish exactly when that lands**, where `p` makes it
once, nobody else does, and the operator does not release the run afterwards. -/
theorem stored_iff_lands {p : π} {m₀ m' : SysConfig π α} {ls : List (SysLabel π)}
    {c : ExecutionContext} {ttl : Int} {s : String} {status : RunStatus} {fields : Mapping String}
    {r : Except Exc Unit} (hs : ByFinish s status) (hcons : m₀.world.db.Consistent)
    (hrun : (system net).Run m₀ ls m')
    (hclaim : (⟨.claim c ttl, .ok ()⟩ : CallEvent) ∈ eventsOf p ls)
    (honly : ∀ l ∈ ls, FinishesAs c.runId c.linearIssueId s l → ∃ ev, l = .call p ev)
    (hone : ((finishes (eventsOf p ls)).map Prod.fst).count s ≤ 1)
    {pre post : List (SysLabel π)} (hls : ls = pre ++ .call p ⟨.finish c s fields, r⟩ :: post)
    (hkept : status = .blocked → ¬ Releases c.linearIssueId post) :
    m'.world.db.HasStatus c.runId c.linearIssueId status ↔ FinishLands net p c s m₀ ls m' := by
  constructor
  · intro hstored fields' r' m₁ m₂ hpasses
    have hlanded : ∀ d, SupabaseStore.finish d m₁.world.now c s fields' m₁.world.db =
        (r', m₂.world.db) → m₁.world.db.Holds c.runId c.linearIssueId ∧ d.arrives = true := by
      intro d hans
      by_contra hmissed
      exact not_hasStatus_of_lacks (lacksStatus_of_missed hs hclaim honly hone hpasses
        (supabase_finish_missed hans hmissed)) hstored
    obtain ⟨_, _, _, _, hstep, _⟩ := hpasses
    cases hstep with
    | call hp ha =>
        obtain ⟨d, hd, hans, -⟩ := ha
        exact ⟨(hlanded d hans).1, d, hd, (hlanded d hans).2, hans⟩
  · intro hlands
    subst hls
    obtain ⟨m₁, m₂, hr₁, hstep, hr₂⟩ := hrun.split_at
    obtain ⟨hholds, d, -, hd, hans⟩ := hlands fields r m₁ m₂ ⟨pre, post, rfl, hr₁, hstep, hr₂⟩
    have hc₁ := run_consistent hr₁ hcons
    exact run_hasStatus hr₂ (step_consistent hstep hc₁) hs.final hkept
      (supabase_finish_stores hd hc₁ hholds hs.final hans)

end HermesRuntime
