import HermesRuntime.ExecutionProof
import HermesRuntime.Script
import HermesRuntime.WorldProof

/-!
# A worker that lost its lock

Once a worker's lock has been recovered, its run has ended and everything it still does to the
store is turned away, or is a row in `agent_events`. The worker learns of it through its
heartbeat thread only, so it may well go on to move its issue; if a heartbeat falls after the
loss, it does not get past the gates any more.

* `run_idle` — a heartbeat thread that has ended gets no more answers.
* `worker_cut` — a worker's beats come after it has started its thread.
* `lost_lock_harmless` — what a worker without its lock can still do.
-/

namespace HermesRuntime

open Effects Prog Semantics

variable {π : Type} [DecidableEq π] {net : Net} {α : Type}

/-! ## Heartbeat threads along an interleaving -/

/-- The steps that change the heartbeat thread of `p`. -/
def Touches (p : π) : SysLabel π → Prop
  | .call q ⟨.startHeartbeat _ _, _⟩ | .call q ⟨.joinHeartbeat _, _⟩ | .env (.beat q) => q = p
  | _ => False

/-- The step starts the heartbeat thread of `p`. -/
def Starts (p : π) : SysLabel π → Prop
  | .call q ⟨.startHeartbeat _ _, _⟩ => q = p
  | _ => False

/-- Program `p` has no heartbeat thread, or one that has ended. -/
def World.Idle (w : World π) (p : π) : Prop :=
  ∀ pulse, w.pulses p = some pulse → pulse.alive = false

theorem pulses_joined_ne {p q : π} (h : q ≠ p) (w : World π) :
    (w.joined q).pulses p = w.pulses p := by
  unfold World.joined
  split
  · exact Function.update_of_ne (Ne.symm h) _ _
  · rfl

theorem pulses_joined_self (p : π) (w : World π) :
    (w.joined p).pulses p = (w.pulses p).map fun pulse => { pulse with stopped := true } := by
  unfold World.joined
  cases hpulse : w.pulses p with
  | some pulse => exact Function.update_self _ _ _
  | none => exact hpulse

/-- Any other step leaves the heartbeat thread of `p` alone. -/
theorem step_pulse_same {p : π} {m m' : SysConfig π α} {l : SysLabel π}
    (h : (system net).Step m l m') (hl : ¬ Touches p l) :
    m'.world.pulses p = m.world.pulses p := by
  cases h with
  | @call q call k r w hp ha =>
      cases call with
      | entropy | lockRejected | dispatch | recordBlocked =>
          have heq : w = m.world := ha
          rw [heq]
      | startHeartbeat c ttl =>
          have heq : w = m.world.withPulse q ⟨c, ttl, [], false⟩ := ha
          rw [heq]
          exact Function.update_of_ne (Ne.symm hl) _ _
      | joinHeartbeat c =>
          obtain ⟨-, rfl⟩ := ha
          exact pulses_joined_ne hl _
      | moveStatus i s => rcases ha with rfl | ⟨rfl, -⟩ <;> rfl
      | readIssues =>
          obtain ⟨rfl, -⟩ := ha
          rfl
      | claim | event | finish | recover =>
          obtain ⟨d, -, -, heq⟩ := ha
          show w.pulses p = _
          rw [heq]
          rfl
  | @env x w hs =>
      cases x with
      | tick | edit =>
          have heq : w = _ := hs
          rw [heq]
      | store op =>
          have heq : w = _ := hs
          rw [heq]
          rfl
      | beat q =>
          obtain ⟨pulse, -, -, d, r, db, -, rfl⟩ := hs
          exact Function.update_of_ne (Ne.symm hl) _ _

/-- A start gives the program a new heartbeat thread. -/
theorem step_start {p : π} {m m' : SysConfig π α} {c : ExecutionContext} {ttl : Int} {r : Unit}
    (h : (system net).Step m (.call p ⟨.startHeartbeat c ttl, r⟩) m') :
    m'.world.pulses p = some ⟨c, ttl, [], false⟩ := by
  cases h with
  | @call _ _ k _ w hp ha =>
      have heq : w = m.world.withPulse p ⟨c, ttl, [], false⟩ := ha
      rw [heq]
      exact Function.update_self _ _ _

/-- A join stops the heartbeat thread, and gives the answers it has got. -/
theorem step_join {p : π} {m m' : SysConfig π α} {c : ExecutionContext}
    {outcomes : List (Except Exc Bool)}
    (h : (system net).Step m (.call p ⟨.joinHeartbeat c, outcomes⟩) m') :
    outcomes = m.world.answers p ∧
      m'.world.pulses p = (m.world.pulses p).map fun pulse => { pulse with stopped := true } := by
  cases h with
  | call hp ha =>
      obtain ⟨hout, rfl⟩ := ha
      exact ⟨hout, pulses_joined_self _ _⟩

/-- A beat of a heartbeat thread, and the answer it gets. -/
theorem step_beat {p : π} {m m' : SysConfig π α} (h : (system net).Step m (.env (.beat p)) m') :
    ∃ pulse d r, m.world.pulses p = some pulse ∧ pulse.alive = true ∧
      SupabaseStore.heartbeat d m.world.now pulse.context pulse.ttlSeconds m.world.db =
        (r, m'.world.db) ∧
      m'.world.pulses p = some { pulse with answers := pulse.answers ++ [r] } := by
  cases h with
  | env hs =>
      obtain ⟨pulse, hpulse, halive, d, r, db, hans, rfl⟩ := hs
      exact ⟨pulse, d, r, hpulse, halive, hans, Function.update_self _ _ _⟩

omit [DecidableEq π] in
theorem answers_of_pulse {w : World π} {p : π} {pulse : Pulse} (h : w.pulses p = some pulse) :
    w.answers p = pulse.answers := by
  unfold World.answers
  rw [h]

/-- What the steps up to the next start make of a heartbeat thread: it is another's turn, or the
thread is joined or beats. -/
theorem step_pulse_cases {p : π} {m m' : SysConfig π α} {l : SysLabel π}
    (h : (system net).Step m l m') (hl : ¬ Starts p l) :
    m'.world.pulses p = m.world.pulses p ∧ l ≠ .env (.beat p) ∨
    m'.world.pulses p = (m.world.pulses p).map (fun pulse => { pulse with stopped := true }) ∧
      l ≠ .env (.beat p) ∨
    l = .env (.beat p) := by
  by_cases ht : Touches p l
  swap
  · refine Or.inl ⟨step_pulse_same h ht, fun heq => ht ?_⟩
    rw [heq]
    exact rfl
  cases l with
  | call q ev =>
      obtain ⟨call, r⟩ := ev
      cases call
      case startHeartbeat c ttl => exact absurd ht hl
      case joinHeartbeat c =>
        obtain rfl : q = p := ht
        exact Or.inr (Or.inl ⟨(step_join h).2, nofun⟩)
      all_goals exact ht.elim
  | env x =>
      cases x with
      | beat q =>
          obtain rfl : q = p := ht
          exact Or.inr (Or.inr rfl)
      | tick | store | edit => exact ht.elim

/-- A heartbeat thread that has ended does not beat, and gets no more answers. -/
theorem step_idle {p : π} {m m' : SysConfig π α} {l : SysLabel π}
    (h : (system net).Step m l m') (hl : ¬ Starts p l) (hidle : m.world.Idle p) :
    m'.world.Idle p ∧ m'.world.answers p = m.world.answers p ∧ l ≠ .env (.beat p) := by
  rcases step_pulse_cases h hl with ⟨hsame, hne⟩ | ⟨hjoined, hne⟩ | rfl
  · refine ⟨fun pulse hpulse => hidle pulse (hsame ▸ hpulse), ?_, hne⟩
    unfold World.answers
    rw [hsame]
  · refine ⟨fun pulse hpulse => ?_, ?_, hne⟩
    · rw [hjoined] at hpulse
      obtain ⟨_, -, rfl⟩ := Option.map_eq_some_iff.1 hpulse
      rfl
    · unfold World.answers
      rw [hjoined]
      cases m.world.pulses p <;> rfl
  · obtain ⟨pulse, _, _, hpulse, halive, -⟩ := step_beat h
    rw [hidle pulse hpulse] at halive
    cases halive

/-- **A heartbeat thread that has ended gets no more answers**, until the next is started. -/
theorem run_idle {p : π} {m m' : SysConfig π α} {ls : List (SysLabel π)}
    (h : (system net).Run m ls m') (hls : ∀ l ∈ ls, ¬ Starts p l) (hidle : m.world.Idle p) :
    m'.world.Idle p ∧ m'.world.answers p = m.world.answers p := by
  refine h.invariant (fun m' => m'.world.Idle p ∧ m'.world.answers p = m.world.answers p)
    ⟨hidle, rfl⟩ fun {m₁ l m₂} hl hs hm => ?_
  obtain ⟨h₁, h₂, -⟩ := step_idle hs (hls l hl) hm.1
  exact ⟨h₁, h₂.trans hm.2⟩

theorem beat_not_mem_of_idle {p : π} {m m' : SysConfig π α} {ls : List (SysLabel π)}
    (h : (system net).Run m ls m') (hls : ∀ l ∈ ls, ¬ Starts p l) (hidle : m.world.Idle p) :
    .env (.beat p) ∉ ls := by
  intro hmem
  obtain ⟨pre, post, rfl⟩ := List.append_of_mem hmem
  obtain ⟨m₁, m₂, h₁, hs, -⟩ := h.split_at
  have hidle₁ := (run_idle h₁ (fun l hl => hls l (List.mem_append_left _ hl)) hidle).1
  exact (step_idle hs (hls _ (by simp)) hidle₁).2.2 rfl

/-- Joining a thread that has ended gives the answers it had got. -/
theorem join_of_idle {p : π} {m m' : SysConfig π α} {ls : List (SysLabel π)}
    (h : (system net).Run m ls m') (hls : ∀ l ∈ ls, ¬ Starts p l) (hidle : m.world.Idle p)
    {c : ExecutionContext} {outcomes : List (Except Exc Bool)}
    (hmem : .call p ⟨.joinHeartbeat c, outcomes⟩ ∈ ls) : outcomes = m.world.answers p := by
  obtain ⟨pre, post, rfl⟩ := List.append_of_mem hmem
  obtain ⟨m₁, m₂, h₁, hs, -⟩ := h.split_at
  rw [(step_join hs).1]
  exact (run_idle h₁ (fun l hl => hls l (List.mem_append_left _ hl)) hidle).2

/-- A heartbeat thread beats for the context it was started with. -/
theorem run_pulse_context {p : π} {m m' : SysConfig π α} {ls : List (SysLabel π)}
    (h : (system net).Run m ls m') (hls : ∀ l ∈ ls, ¬ Starts p l) {pulse pulse' : Pulse}
    (hpulse : m.world.pulses p = some pulse) (hpulse' : m'.world.pulses p = some pulse') :
    pulse'.context = pulse.context := by
  refine h.invariant (fun m' => ∀ pulse', m'.world.pulses p = some pulse' →
      pulse'.context = pulse.context) ?_ (fun {m₁ l m₂} hl hs hm pulse₂ hpulse₂ => ?_)
    pulse' hpulse'
  · intro pulse₀ hpulse₀
    rw [hpulse] at hpulse₀
    cases hpulse₀
    rfl
  · rcases step_pulse_cases hs (hls l hl) with ⟨hsame, -⟩ | ⟨hjoined, -⟩ | rfl
    · exact hm pulse₂ (hsame ▸ hpulse₂)
    · rw [hjoined] at hpulse₂
      obtain ⟨pulse₁, hpulse₁, rfl⟩ := Option.map_eq_some_iff.1 hpulse₂
      exact hm pulse₁ hpulse₁
    · obtain ⟨pulse₁, _, _, hpulse₁, -, -, hafter⟩ := step_beat hs
      rw [hafter] at hpulse₂
      cases hpulse₂
      exact hm pulse₁ hpulse₁

/-! ## A worker's beats -/

theorem not_starts_of_events {p : π} {ls : List (SysLabel π)}
    (h : ∀ c ttl r, (⟨.startHeartbeat c ttl, r⟩ : CallEvent) ∉ eventsOf p ls) :
    ∀ l ∈ ls, ¬ Starts p l := by
  intro l hl hstarts
  cases l with
  | env x => exact hstarts
  | call q ev =>
      obtain ⟨call, r⟩ := ev
      cases call
      case startHeartbeat c ttl =>
        obtain rfl : q = p := hstarts
        exact h c ttl r (mem_eventsOf.2 hl)
      all_goals exact hstarts

theorem not_starts_of_own {p : π} {i : String} {c : ExecutionContext} {ls : List (SysLabel π)}
    (h : ∀ ev ∈ eventsOf p ls, IsOwn i c ev.1) : ∀ l ∈ ls, ¬ Starts p l :=
  not_starts_of_events fun c' ttl r hmem => h ⟨.startHeartbeat c' ttl, r⟩ hmem

theorem start_not_mem_claim {drawn : Nat × Fin (2 ^ 80)} {c c' : ExecutionContext}
    {ttl ttl' : Int} {r : Unit} : (⟨.startHeartbeat c' ttl', r⟩ : CallEvent) ∉
      [⟨.entropy, drawn⟩, ⟨.claim c ttl, .ok ()⟩] := by
  intro h
  rcases List.mem_cons.1 h with h | h
  · cases h
  · cases List.mem_singleton.1 h

/-- **A worker's beats come after it has started its thread**, and what it calls from then on
are calls of its own. -/
theorem worker_cut {rt : AgentRuntime} {m : Bool} {issue : Issue} {p : π}
    {m₀ m' : SysConfig π (Except Exc ExecutionContext)} {a b : List (SysLabel π)}
    (hp : m₀.progs p = (rt.execute m issue).run) (hidle : m₀.world.Idle p)
    (hrun : (system net).Run m₀ (a ++ .env (.beat p) :: b) m') {c : ExecutionContext} {ttl : Int}
    (hclaim : ⟨.claim c ttl, .ok ()⟩ ∈ eventsOf p (a ++ .env (.beat p) :: b)) :
    ∃ k t drawn, a = k ++ .call p ⟨.startHeartbeat c rt.ttlSeconds, ()⟩ :: t ∧
      eventsOf p k = [⟨.entropy, drawn⟩, ⟨.claim c ttl, .ok ()⟩] ∧
      (∀ ev ∈ eventsOf p t, IsOwn issue.identifier c ev.1) ∧
      ∀ ev ∈ eventsOf p b, IsOwn issue.identifier c ev.1 := by
  obtain ⟨pre, post, hcut⟩ := List.append_of_mem hclaim
  have hreach := hrun.reach p
  rw [hp, hcut] at hreach
  obtain ⟨⟨drawn, rfl⟩, hpost⟩ := own_after_claim hreach
  rcases hpost with rfl | ⟨own, rfl, hown⟩
  · have hstarts : ∀ l ∈ a ++ .env (.beat p) :: b, ¬ Starts p l :=
      not_starts_of_events fun _ _ _ hmem => start_not_mem_claim (hcut ▸ hmem)
    exact absurd (by simp) (beat_not_mem_of_idle hrun hstarts hidle)
  obtain ⟨k, t, hls, hk, ht⟩ := @eventsOf_split _ _ _ _ _ p _
    [⟨.entropy, drawn⟩, ⟨.claim c ttl, .ok ()⟩] own _ hcut
  have hnone : .env (.beat p) ∉ k := by
    rw [hls] at hrun
    obtain ⟨m₁, -, h₁, -, -⟩ := hrun.split_at
    exact beat_not_mem_of_idle h₁ (not_starts_of_events fun _ _ _ hmem =>
      start_not_mem_claim (hk ▸ hmem)) hidle
  -- So the beat is among the steps after the start.
  rcases List.append_eq_append_iff.1 hls with ⟨left, rfl, hleft⟩ | ⟨t', rfl, ht'⟩
  · cases left with
    | nil => cases hleft
    | cons l left =>
        injection hleft with hl
        exact absurd (by simp [hl]) hnone
  · cases t' with
    | nil => cases ht'
    | cons l t' =>
        rw [List.cons_append] at ht'
        injection ht' with hl ht'
        subst hl ht'
        rw [eventsOf_append, eventsOf_env_cons] at ht
        refine ⟨k, t', drawn, rfl, hk, fun ev hev => hown ev ?_, fun ev hev => hown ev ?_⟩
        · rw [← ht]
          exact List.mem_append_left _ hev
        · rw [← ht]
          exact List.mem_append_right _ hev

/-! ## After the loss -/

/-- Whatever becomes of the request, a heartbeat of an ended run is not granted, and changes
nothing. -/
theorem supabase_heartbeat_of_ended {db : Db} (hc : db.Consistent) {c : ExecutionContext}
    (h : db.Ended c.runId) (d : Delivery) (now : Timestamp) (ttl : Int) :
    ∃ r, SupabaseStore.heartbeat d now c ttl db = (r, db) ∧ r ≠ .ok true := by
  obtain ⟨x, hx, hid, hs⟩ := h
  have htxn := heartbeat_of_ended hc hx hs now c.linearIssueId ttl
  rw [hid] at htxn
  have herror : ∀ e : Exc, (.error e : Except Exc Bool) ≠ .ok true := by
    intro e heq
    cases heq
  cases d with
  | refused f => exact ⟨_, rfl, herror _⟩
  | lost f =>
      refine ⟨.error f.exc, ?_, herror _⟩
      by_cases hv : validTtl ttl = true <;>
        simp [SupabaseStore.heartbeat, post, StoreOp.apply, StoreOp.txn, htxn, hv]
  | answered =>
      by_cases hv : validTtl ttl = true
      · exact ⟨.ok false, by simp [SupabaseStore.heartbeat, post, StoreOp.txn, htxn, hv],
          fun heq => Bool.false_ne_true (Except.ok.inj heq)⟩
      · exact ⟨.error (SqlError.raised "Invalid lock TTL").failure.exc,
          by simp [SupabaseStore.heartbeat, post, StoreOp.txn, htxn, hv], herror _⟩

/-- A heartbeat that is not granted is an error. -/
theorem heartbeatErrors_snoc {answers : List (Except Exc Bool)} {r : Except Exc Bool}
    (h : r ≠ .ok true) : heartbeatErrors (answers ++ [r]) ≠ [] := by
  induction answers with
  | nil =>
      rcases r with e | (_ | _)
      · exact nofun
      · exact nofun
      · exact absurd rfl h
  | cons a answers ih =>
      rcases a with e | (_ | _)
      · exact nofun
      · exact nofun
      · exact ih

/-- **A worker's beat** asks for its own run, and where it is not granted every join of the
worker finds an error. -/
theorem worker_beat {rt : AgentRuntime} {m : Bool} {issue : Issue} {p : π}
    {m₀ x y m' : SysConfig π (Except Exc ExecutionContext)} {a b : List (SysLabel π)}
    (hp : m₀.progs p = (rt.execute m issue).run) (hidle : m₀.world.Idle p)
    (ha : (system net).Run m₀ a x) (hs : (system net).Step x (.env (.beat p)) y)
    (hb : (system net).Run y b m') {c : ExecutionContext} {ttl : Int}
    (hclaim : ⟨.claim c ttl, .ok ()⟩ ∈ eventsOf p (a ++ .env (.beat p) :: b)) :
    ∃ d ttl' r, SupabaseStore.heartbeat d x.world.now c ttl' x.world.db = (r, y.world.db) ∧
      (r ≠ .ok true → ∀ c' outcomes,
        ⟨.joinHeartbeat c', outcomes⟩ ∈ eventsOf p (a ++ .env (.beat p) :: b) →
          heartbeatErrors outcomes ≠ []) := by
  obtain ⟨k, t, drawn, rfl, hk, ht, hlate⟩ := worker_cut hp hidle (ha.trans (.head hs hb)) hclaim
  obtain ⟨x₁, x₂, -, hstart, htail⟩ := ha.split_at
  have hts := not_starts_of_own ht
  obtain ⟨pulse, d, r, hpulse, halive, hans, hafter⟩ := step_beat hs
  have hcontext := run_pulse_context htail hts (step_start hstart) hpulse
  refine ⟨d, pulse.ttlSeconds, r, by rw [hcontext] at hans; exact hans, ?_⟩
  intro hr c' outcomes hjoin
  have hmem := mem_eventsOf.1 hjoin
  rw [List.append_assoc, List.mem_append, List.cons_append, List.mem_cons, List.mem_append,
    List.mem_cons] at hmem
  rcases hmem with hmem | hmem | hmem | hmem | hmem
  · -- Before the start there is the claim only.
    have hearly := mem_eventsOf.2 hmem
    rw [hk] at hearly
    rcases List.mem_cons.1 hearly with h | h
    · cases h
    · cases List.mem_singleton.1 h
  · cases hmem
  · -- A thread that has been joined does not beat.
    obtain ⟨u, v, rfl⟩ := List.append_of_mem hmem
    obtain ⟨z₁, z₂, -, hsj, hv⟩ := htail.split_at
    have hidle₂ : z₂.world.Idle p := by
      intro pulse' hpulse'
      rw [(step_join hsj).2] at hpulse'
      obtain ⟨_, -, rfl⟩ := Option.map_eq_some_iff.1 hpulse'
      rfl
    have hvs : ∀ l ∈ v, ¬ Starts p l := fun l hl => hts l (by simp [hl])
    rw [(run_idle hv hvs hidle₂).1 pulse hpulse] at halive
    cases halive
  · cases hmem
  · -- After the beat the thread has ended, with the error among its answers.
    have hidle' : y.world.Idle p := by
      intro pulse' hpulse'
      rw [hafter] at hpulse'
      cases hpulse'
      simp [Pulse.alive, heartbeatErrors_snoc hr]
    rw [join_of_idle hb (not_starts_of_own hlate) hidle' hmem, answers_of_pulse hafter]
    exact heartbeatErrors_snoc hr

/-- The runs and the locks are as they were. -/
def SameRuns (db db' : Db) : Prop := db'.runs = db.runs ∧ db'.locks = db.locks

theorem sameRuns_refl (db : Db) : SameRuns db db := ⟨rfl, rfl⟩

/-- Posting an event leaves the runs and the locks alone. -/
theorem sameRuns_event {d : Delivery} {now : Timestamp} {c : ExecutionContext} {kind : String}
    {payload : Mapping PyVal} {db db' : Db} {r : Except Exc Unit}
    (h : SupabaseStore.event d now c kind payload db = (r, db')) : SameRuns db db' := by
  obtain rfl : _ = db' := congrArg Prod.snd h
  unfold SupabaseStore.event
  split
  · exact sameRuns_refl db
  · rename_i body hbody
    show SameRuns db (post d now _ db).2
    rcases post_db d now (.insertEvent ⟨c.runId, c.linearIssueId, c.agent, kind, body⟩) db with
      hdb | hdb <;> rw [hdb] <;> exact sameRuns_refl db

/-- A call of a worker whose run has ended leaves the runs and the locks alone, and is turned
away where it is a finish. -/
theorem own_step_of_ended {p : π} {m m' : SysConfig π α} {ev : CallEvent} {i : String}
    {c : ExecutionContext} (h : (system net).Step m (.call p ev) m')
    (hown : Starts p (.call p ev : SysLabel π) ∨ IsOwn i c ev.1) (hc : m.world.db.Consistent)
    (hended : m.world.db.Ended c.runId) : SameRuns m.world.db m'.world.db ∧
      ∀ c' s fields r, ev = ⟨.finish c' s fields, r⟩ → ∃ e, r = .error e := by
  cases h with
  | @call _ call k r w hp ha =>
      cases call
      case startHeartbeat c' ttl =>
        have heq : w = m.world.withPulse p ⟨c', ttl, [], false⟩ := ha
        rw [heq]
        exact ⟨sameRuns_refl _, nofun⟩
      case moveStatus j s =>
        refine ⟨?_, nofun⟩
        rcases ha with rfl | ⟨rfl, -⟩ <;> exact sameRuns_refl _
      case event c' kind payload =>
        obtain ⟨d, -, hans, -⟩ := ha
        exact ⟨sameRuns_event hans, nofun⟩
      case dispatch c' =>
        have heq : w = m.world := ha
        rw [heq]
        exact ⟨sameRuns_refl _, nofun⟩
      case joinHeartbeat c' =>
        obtain ⟨-, rfl⟩ := ha
        refine ⟨?_, nofun⟩
        unfold World.joined
        split <;> exact sameRuns_refl _
      case finish c' s fields =>
        obtain rfl : c' = c := hown.resolve_left id
        obtain ⟨d, -, hans, -⟩ := ha
        obtain ⟨x, hx, hid, hs⟩ := hended
        obtain ⟨e, he⟩ := supabase_finish_of_ended hc hx hs d m.world.now hid.symm s fields
        obtain ⟨rfl, hdb⟩ := Prod.mk.inj (he.symm.trans hans)
        refine ⟨?_, ?_⟩
        · show SameRuns m.world.db w.db
          rw [← hdb]
          exact sameRuns_refl _
        · intro c'' s' fields' r' heq
          cases heq
          exact ⟨e, rfl⟩
      all_goals exact (hown.elim id id).elim

/-- The step is one of worker `p`: a call of its own, or a beat of its heartbeat thread. -/
def IsStepOf (p : π) : SysLabel π → Prop
  | .call q _ | .env (.beat q) => q = p
  | .env _ => False

/-- A worker that has claimed its run and holds its lock no more has seen the run end. -/
theorem ended_of_lost {p : π} {m₀ m₁ : SysConfig π α} {ls : List (SysLabel π)}
    (hc : m₀.world.db.Consistent) (h : (system net).Run m₀ ls m₁) {c : ExecutionContext}
    {ttl : Int} (hclaim : ⟨.claim c ttl, .ok ()⟩ ∈ eventsOf p ls)
    (hlost : ¬ m₁.world.db.Holds c.runId c.linearIssueId) : m₁.world.db.Ended c.runId := by
  refine ended_of_not_holds (run_consistent h hc) ?_ hlost
  obtain ⟨a, b, rfl⟩ := List.append_of_mem (mem_eventsOf.1 hclaim)
  obtain ⟨x, y, ha, hs, hb⟩ := h.split_at
  refine run_hasRun hb (step_consistent hs (run_consistent ha hc)) ?_
  cases hs with
  | call hp hans =>
      obtain ⟨d, -, hans, -⟩ := hans
      exact hasRun_of_claim hans

/-- After its claim a worker only works on its own run. -/
theorem own_of_claimed {rt : AgentRuntime} {m : Bool} {issue : Issue} {p : π}
    {m₀ m₂ : SysConfig π (Except Exc ExecutionContext)} {ls₁ ls₂ : List (SysLabel π)}
    (hp : m₀.progs p = (rt.execute m issue).run) (h : (system net).Run m₀ (ls₁ ++ ls₂) m₂)
    {c : ExecutionContext} {ttl : Int} (hclaim : ⟨.claim c ttl, .ok ()⟩ ∈ eventsOf p ls₁) :
    ∀ ev ∈ eventsOf p ls₂, Starts p (.call p ev : SysLabel π) ∨ IsOwn issue.identifier c ev.1 := by
  obtain ⟨before, mid, hcut⟩ := List.append_of_mem hclaim
  have hreach := h.reach p
  rw [hp, eventsOf_append, hcut, List.append_assoc, List.cons_append] at hreach
  obtain ⟨-, hafter⟩ := own_after_claim hreach
  intro ev hev
  have hmem : ev ∈ mid ++ eventsOf p ls₂ := List.mem_append_right _ hev
  rcases hafter with hnil | ⟨own, heq, hown⟩
  · rw [hnil] at hmem
    cases hmem
  · rw [heq] at hmem
    rcases List.mem_cons.1 hmem with rfl | hmem
    · exact Or.inl rfl
    · exact Or.inr (hown ev hmem)

/-- A beat for a run that has ended is not granted, and the worker's join hears of it. -/
theorem beat_of_ended {rt : AgentRuntime} {m : Bool} {issue : Issue} {p : π}
    {m₀ x y m₂ : SysConfig π (Except Exc ExecutionContext)} {ls post : List (SysLabel π)}
    (hc : m₀.world.db.Consistent) (hidle : m₀.world.Idle p)
    (hp : m₀.progs p = (rt.execute m issue).run) (h : (system net).Run m₀ ls x)
    (hs : (system net).Step x (.env (.beat p)) y) (hy : (system net).Run y post m₂)
    {c : ExecutionContext} {ttl : Int}
    (hclaim : ⟨.claim c ttl, .ok ()⟩ ∈ eventsOf p (ls ++ .env (.beat p) :: post))
    (hended : x.world.db.Ended c.runId) :
    y.world.db = x.world.db ∧ ∀ c' outcomes,
      ⟨.joinHeartbeat c', outcomes⟩ ∈ eventsOf p (ls ++ .env (.beat p) :: post) →
        heartbeatErrors outcomes ≠ [] := by
  obtain ⟨d, ttl', r, hans, herrors⟩ := worker_beat hp hidle h hs hy hclaim
  obtain ⟨r', hans', hr'⟩ :=
    supabase_heartbeat_of_ended (run_consistent h hc) hended d x.world.now ttl'
  obtain ⟨rfl, hdb⟩ := Prod.mk.inj (hans'.symm.trans hans)
  exact ⟨hdb.symm, herrors hr'⟩

/-- **A worker that lost its lock.** From then on none of its steps changes the runs or the
locks, its finish is turned away, and if its heartbeat thread beats once more it is not on the
way to a completed run any more. -/
theorem lost_lock_harmless {rt : AgentRuntime} {m : Bool} {issue : Issue} {p : π}
    {m₀ m₁ m₂ : SysConfig π (Except Exc ExecutionContext)} {ls₁ ls₂ : List (SysLabel π)}
    (hc : m₀.world.db.Consistent) (hidle : m₀.world.Idle p)
    (hp : m₀.progs p = (rt.execute m issue).run) (h₁ : (system net).Run m₀ ls₁ m₁)
    (h₂ : (system net).Run m₁ ls₂ m₂) {c : ExecutionContext} {ttl : Int}
    (hclaim : ⟨.claim c ttl, .ok ()⟩ ∈ eventsOf p ls₁)
    (hlost : ¬ m₁.world.db.Holds c.runId c.linearIssueId) :
    (∀ c' s fields r, .call p ⟨.finish c' s fields, r⟩ ∈ ls₂ → ∃ e, r = .error e) ∧
    (∀ pre l post x y, ls₂ = pre ++ l :: post → IsStepOf p l → (system net).Run m₁ pre x →
      (system net).Step x l y → (system net).Run y post m₂ →
        SameRuns x.world.db y.world.db) ∧
    (.env (.beat p) ∈ ls₂ → ∀ ev ∈ eventsOf p (ls₁ ++ ls₂), ¬ Completes ev) := by
  have hc₁ := run_consistent h₁ hc
  have hended := ended_of_lost hc h₁ hclaim hlost
  have hown := own_of_claimed hp (h₁.trans h₂) hclaim
  have hcall : ∀ {pre post : List (SysLabel π)} {ev : CallEvent}
      {x y : SysConfig π (Except Exc ExecutionContext)}, ls₂ = pre ++ .call p ev :: post →
      (system net).Run m₁ pre x → (system net).Step x (.call p ev) y →
      SameRuns x.world.db y.world.db ∧
        ∀ c' s fields r, ev = ⟨.finish c' s fields, r⟩ → ∃ e, r = .error e := by
    intro pre post ev x y heq hx hs
    exact own_step_of_ended hs (hown ev (mem_eventsOf.2 (by simp [heq])))
      (run_consistent hx hc₁) (run_ended hx hc₁ hended)
  -- Its beats are not granted.
  have hbeat : ∀ {pre post : List (SysLabel π)}
      {x y : SysConfig π (Except Exc ExecutionContext)}, ls₂ = pre ++ .env (.beat p) :: post →
      (system net).Run m₁ pre x → (system net).Step x (.env (.beat p)) y →
      (system net).Run y post m₂ → y.world.db = x.world.db ∧ ∀ c' outcomes,
        ⟨.joinHeartbeat c', outcomes⟩ ∈ eventsOf p (ls₁ ++ ls₂) →
          heartbeatErrors outcomes ≠ [] := by
    intro pre post x y heq hx hs hy
    have hwhole : ls₁ ++ ls₂ = (ls₁ ++ pre) ++ .env (.beat p) :: post := by simp [heq]
    have hclaim' : (⟨.claim c ttl, .ok ()⟩ : CallEvent) ∈ eventsOf p (ls₁ ++ ls₂) := by
      rw [eventsOf_append]
      exact List.mem_append_left _ hclaim
    rw [hwhole] at hclaim' ⊢
    exact beat_of_ended hc hidle hp (h₁.trans hx) hs hy hclaim' (run_ended hx hc₁ hended)
  refine ⟨?_, ?_, ?_⟩
  · intro c' s fields r hmem
    obtain ⟨pre, post, heq⟩ := List.append_of_mem hmem
    rw [heq] at h₂
    obtain ⟨x, y, hx, hs, -⟩ := h₂.split_at
    exact (hcall heq hx hs).2 c' s fields r rfl
  · intro pre l post x y heq hl hx hs hy
    cases l with
    | call q ev =>
        obtain rfl : q = p := hl
        exact (hcall heq hx hs).1
    | env step =>
        cases step with
        | beat q =>
            obtain rfl : q = p := hl
            rw [(hbeat heq hx hs hy).1]
            exact sameRuns_refl _
        | tick | store | edit => exact hl.elim
  · intro hmem ev hev hcompletes
    obtain ⟨pre, post, heq⟩ := List.append_of_mem hmem
    have h₂' := h₂
    rw [heq] at h₂'
    obtain ⟨x, y, hx, hs, hy⟩ := h₂'.split_at
    obtain ⟨before, mid, hcut₁⟩ := List.append_of_mem hclaim
    have hcut : eventsOf p (ls₁ ++ ls₂) =
        before ++ ⟨.claim c ttl, .ok ()⟩ :: (mid ++ eventsOf p ls₂) := by
      rw [eventsOf_append, hcut₁, List.append_assoc, List.cons_append]
    have hreach := (h₁.trans h₂).reach p
    rw [hp, hcut] at hreach
    obtain ⟨⟨drawn, rfl⟩, -⟩ := own_after_claim hreach
    rw [hcut] at hev
    have hpost : ev ∈ mid ++ eventsOf p ls₂ := by
      rcases List.mem_append.1 hev with hev | hev
      · rw [List.mem_singleton.1 hev] at hcompletes
        exact hcompletes.elim
      · rcases List.mem_cons.1 hev with rfl | hev
        · exact hcompletes.elim
        · exact hev
    obtain ⟨outcomes, hjoin, hclean⟩ := join_of_completes hreach hpost hcompletes
    refine (hbeat heq hx hs hy).2 c outcomes ?_ hclean
    rw [hcut]
    exact List.mem_append_right _ (List.mem_cons_of_mem _ hjoin)

/-! ## Two workers and one issue -/

/-- Two workers about to execute the issue, over empty tables. -/
def staleStart : SysConfig Bool (Except Exc ExecutionContext) :=
  ⟨fun _ => (AgentRuntime.ofStore.execute true qaIssue).run, .start ⟨[], List.nodup_nil⟩⟩

/-- The first worker claims and starts its heartbeats, which do not come: its lock expires, is
recovered, and the second worker claims the issue. -/
def lossRun : List (SysLabel Bool) × SysConfig Bool (Except Exc ExecutionContext) :=
  Script.calm.driver.run [.inl false, .inl false, .inl false, .inr (.tick 600000000),
    .inr (.store (.recover "LOL-1")), .inl true, .inl true] staleStart

/-- What the first worker does then, with or without a heartbeat before. -/
def lateRun (beats : Bool) : List (SysLabel Bool) × SysConfig Bool (Except Exc ExecutionContext) :=
  Script.calm.driver.run ((if beats then [.inr (.beat false)] else []) ++
    List.replicate 8 (.inl false)) lossRun.2

/-- The run that holds no lock in a table. -/
theorem not_holds_of_locks {db : Db} {r : String} (h : ∀ l ∈ db.locks.rows, l.runId ≠ r)
    (i : String) : ¬ db.Holds r i := by
  rintro ⟨l, hl, hof⟩
  exact h l hl (isOf_iff.1 hof).2

/-- The rows of `agent_events` about a run. -/
def World.rowsOf {π : Type} (w : World π) (runId : String) : Nat :=
  (w.db.events.filter fun e => e.runId = runId).length

/-- A worker that lost its lock still moves its issue to review, and adds a row to its ended
run. -/
theorem lost_lock_still_acts : ∃ c ttl,
    (system reliable).Run staleStart lossRun.1 lossRun.2 ∧
    (system reliable).Run lossRun.2 (lateRun false).1 (lateRun false).2 ∧
    ⟨.claim c ttl, .ok ()⟩ ∈ eventsOf false lossRun.1 ∧
    ¬ lossRun.2.world.db.Holds c.runId c.linearIssueId ∧
    lastMove (eventsOf false (lateRun false).1) = some "In Review" ∧
    lossRun.2.world.rowsOf c.runId < (lateRun false).2.world.rowsOf c.runId := by
  obtain ⟨c, ttl, hclaim, hid⟩ := exists_claim
    (by decide : newRunId 0 0 ∈ (eventsOf false lossRun.1).filterMap claimedRun)
  refine ⟨c, ttl, Script.calm.driver.run_sound _ _, Script.calm.driver.run_sound _ _, hclaim,
    ?_, by decide, ?_⟩
  · rw [hid]
    exact not_holds_of_locks (by decide) _
  · rw [hid]
    decide

/-- The first worker beats after the loss. -/
theorem lost_lock_harmless_beaten :
    (∀ c' s fields r, .call false ⟨.finish c' s fields, r⟩ ∈ (lateRun true).1 →
      ∃ e, r = .error e) ∧
    (∀ pre l post x y, (lateRun true).1 = pre ++ l :: post → IsStepOf false l →
      (system reliable).Run lossRun.2 pre x → (system reliable).Step x l y →
        (system reliable).Run y post (lateRun true).2 → SameRuns x.world.db y.world.db) ∧
    (.env (.beat false) ∈ (lateRun true).1 →
      ∀ ev ∈ eventsOf false (lossRun.1 ++ (lateRun true).1), ¬ Completes ev) := by
  obtain ⟨c, ttl, hclaim, hid⟩ := exists_claim
    (by decide : newRunId 0 0 ∈ (eventsOf false lossRun.1).filterMap claimedRun)
  have hlost : ¬ lossRun.2.world.db.Holds c.runId c.linearIssueId := by
    rw [hid]
    exact not_holds_of_locks (by decide) _
  have hidle : staleStart.world.Idle false := by
    intro pulse hpulse
    cases hpulse
  exact lost_lock_harmless (consistent_empty _) hidle rfl (Script.calm.driver.run_sound _ _)
    (Script.calm.driver.run_sound _ _) hclaim hlost

end HermesRuntime
