import HermesRuntime.KanbanDeadline
import HermesRuntime.TickExit

/-!
# A tick ends

A tick waits in one place only, in the adapter's loop, and the loop gives up at its deadline. So on
a clock that never goes back and advances with every sleep, a tick makes a bounded number of
sleeps: `⌈timeout / poll⌉` for each issue the guard lets through.

* `Advances` — what is asked of the clock, of its readings and the sleeps in between.
* `adapter_in_time`, `dispatch_in_time` — the adapter over its callbacks, and over the board.
* `carries_sleeps` — the sleeps of a pass.
* `tick_ends` — the sleeps of a tick, which never runs out of fuel.
-/

namespace HermesRuntime

open Effects Prog Proc

/-! ## The clock -/

/-- What the clock shows, or that so many seconds have been slept. -/
inductive Reading where
  | now (t : ℚ)
  | slept (seconds : ℚ)

/-- No reading is below the one before it and the sleeps in between; the first is at least `low`. -/
def Advances : ℚ → List Reading → Prop
  | _, [] => True
  | low, .now t :: rest => low ≤ t ∧ Advances t rest
  | low, .slept seconds :: rest => Advances (low + seconds) rest

instance decidableAdvances : ∀ low readings, Decidable (Advances low readings)
  | _, [] => inferInstanceAs (Decidable True)
  | low, .now t :: rest =>
      have := decidableAdvances t rest
      show Decidable (low ≤ t ∧ Advances t rest) from instDecidableAnd
  | low, .slept seconds :: rest => decidableAdvances (low + seconds) rest

/-- A sleep. -/
def Reading.isSlept : Reading → Bool
  | .slept _ => true
  | .now _ => false

/-- An advancing clock advances in any later part of the run. -/
theorem Advances.later {low : ℚ} {before rest : List Reading} (h : Advances low (before ++ rest)) :
    ∃ low', Advances low' rest := by
  induction before generalizing low with
  | nil => exact ⟨low, h⟩
  | cons reading before ih =>
      cases reading with
      | now t => exact ih h.2
      | slept seconds => exact ih h

theorem Advances.earlier {low : ℚ} {before rest : List Reading}
    (h : Advances low (before ++ rest)) : Advances low before := by
  induction before generalizing low with
  | nil => trivial
  | cons reading before ih =>
      cases reading with
      | now t => exact ⟨h.1, ih h.2⟩
      | slept seconds => exact @ih (low + seconds) h

/-- What an event of the adapter says of the clock. -/
def kanbanReading : KanbanEvent → Option Reading
  | ⟨.monotonic, t⟩ => some (.now t)
  | ⟨.sleep seconds, _⟩ => some (.slept seconds)
  | ⟨.start _, _⟩ | ⟨.readTask _, _⟩ => none

/-- What an event of a tick says of the clock. -/
def tickReading : TickEvent → Option Reading
  | ⟨.monotonic, t⟩ => some (.now t)
  | ⟨.sleep seconds, _⟩ => some (.slept seconds)
  | _ => none

/-- The number of sleeps. -/
def sleeps (readings : List Reading) : ℕ := readings.countP Reading.isSlept

/-! ## The adapter over its callbacks -/

section Adapter

variable {p : KanbanPolling} {fuel : ℕ} {c : ExecutionContext}

/-- A sleep takes the poll interval. -/
def SleepsFor (seconds : ℚ) : KanbanCall → Prop
  | .sleep s => s = seconds
  | _ => True

theorem pollLoop_sleepsFor (taskId : String) (deadline : ℚ) (snapshot : KanbanTaskSnapshot)
    (lastStatus : String) (events : List (String × RawPayload)) :
    Only (fun ev : KanbanEvent => SleepsFor p.pollSeconds ev.1)
      (pollLoop p c taskId deadline fuel snapshot lastStatus events).run := by
  induction fuel generalizing snapshot lastStatus events with
  | zero => trivial
  | succ fuel ih =>
      unfold pollLoop
      split
      · trivial
      split
      · trivial
      refine only_run_bind (fun r => ⟨trivial, trivial⟩) fun now => ?_
      split
      · trivial
      refine only_run_bind (fun r => ⟨rfl, trivial⟩) fun _ => ?_
      refine only_run_bind (fun r => ⟨trivial, trivial⟩) fun next => ?_
      split
      · exact ih _ _ _
      · exact ih _ _ _

theorem adapterCall_sleepsFor :
    Only (fun ev : KanbanEvent => SleepsFor p.pollSeconds ev.1) (adapterCall p fuel c).run := by
  unfold adapterCall
  refine only_run_bind (fun r => ⟨trivial, trivial⟩) fun initial => ?_
  refine only_run_bind ?_ fun snapshot => ?_
  · cases initial with
    | inl taskId => exact fun r => ⟨trivial, trivial⟩
    | inr snapshot => trivial
  refine only_run_bind (fun r => ⟨trivial, trivial⟩) fun now => ?_
  refine only_run_bind (pollLoop_sleepsFor _ _ _ _ _) fun ended => ?_
  cases ended with
  | none => trivial
  | some ended => trivial

theorem clockAdvances_of {seconds low : ℚ} {tr : List KanbanEvent}
    (hsleeps : ∀ ev ∈ tr, SleepsFor seconds ev.1) (h : Advances low (tr.filterMap kanbanReading)) :
    ClockAdvances seconds low tr := by
  induction tr generalizing low with
  | nil => trivial
  | cons ev tr ih =>
      rw [List.forall_mem_cons] at hsleeps
      obtain ⟨call, r⟩ := ev
      cases call with
      | monotonic => exact ⟨h.1, ih hsleeps.2 h.2⟩
      | sleep s =>
          obtain rfl : s = seconds := hsleeps.1
          exact ih hsleeps.2 h
      | start c => exact ih hsleeps.2 h
      | readTask taskId => exact ih hsleeps.2 h

theorem sleeps_kanbanReading (tr : List KanbanEvent) :
    sleeps (tr.filterMap kanbanReading) = tr.countP isSleep := by
  unfold sleeps
  induction tr with
  | nil => rfl
  | cons ev tr ih =>
      obtain ⟨call, r⟩ := ev
      cases call with
      | start c => exact ih
      | readTask taskId => exact ih
      | monotonic => exact ih
      | sleep seconds =>
          show (Reading.slept seconds :: tr.filterMap kanbanReading).countP Reading.isSlept = _
          rw [List.countP_cons_of_pos rfl, List.countP_cons_of_pos rfl, ih]

/-- **The adapter ends in time**: it sleeps `⌈timeout / poll⌉` times at most, and more turns of its
loop than that are never needed. -/
theorem adapter_in_time {low : ℚ} {tr : List KanbanEvent}
    {o : Except Exc (Option ExecutionResult)} (h : Returns (adapterCall p fuel c).run tr o)
    (hclock : Advances low (tr.filterMap kanbanReading))
    (hfuel : ⌈p.timeoutSeconds / p.pollSeconds⌉₊ < fuel) :
    sleeps (tr.filterMap kanbanReading) ≤ ⌈p.timeoutSeconds / p.pollSeconds⌉₊ ∧ o ≠ .ok none := by
  replace hclock := clockAdvances_of (adapterCall_sleepsFor.mem h) hclock
  rw [sleeps_kanbanReading]
  unfold adapterCall at h
  rw [← bind_assoc] at h
  rcases returns_run_bind.1 h with ⟨tr₁, tr₂, snapshot, rfl, hfirst, h₁⟩ | ⟨exc, hfirst, rfl⟩
  swap
  · rw [(first_returns hfirst).2.1]
    exact ⟨Nat.zero_le _, by simp⟩
  obtain ⟨-, hnone, hskip⟩ := first_returns hfirst
  replace hclock := hskip hclock
  rw [List.countP_append, hnone, Nat.zero_add]
  obtain ⟨tr₃, tr₄, o', rfl, hread, h₂⟩ := returns_bind.1 h₁
  obtain ⟨(now : ℚ), rfl, rfl⟩ := returns_monotonic.1 hread
  have hdeadline : now + p.timeoutSeconds ≤
      now + ⌈p.timeoutSeconds / p.pollSeconds⌉₊ * p.pollSeconds := by
    have hceil := Nat.le_ceil (p.timeoutSeconds / p.pollSeconds)
    rw [div_le_iff₀ p.poll_pos] at hceil
    linarith
  have hcount : ([⟨.monotonic, now⟩] ++ tr₄ : List KanbanEvent).countP isSleep =
      tr₄.countP isSleep := by simp [isSleep]
  rw [hcount]
  rcases returns_run_bind.1 h₂ with ⟨tr₅, tr₆, ended, rfl, hloop, h₃⟩ | ⟨exc, hloop, rfl⟩
  · obtain rfl : tr₆ = [] := by cases ended <;> exact (returns_ret.1 h₃).1
    rw [List.append_nil] at hclock ⊢
    obtain ⟨hsleeps, hend⟩ := pollLoop_ends hloop hclock.2 hdeadline hfuel
    refine ⟨hsleeps, ?_⟩
    rcases hend with ⟨ending, last, events, heq, hending⟩ | ⟨-, _, heq⟩
    · cases heq
      rcases concludeLoop_returns hending h₃ with ⟨_, rfl⟩ | ⟨_, _, rfl⟩ <;> simp
    · cases heq
  · exact ⟨(pollLoop_ends hloop hclock.2 hdeadline hfuel).1, by simp⟩

end Adapter

/-! ## The adapter over the board -/

theorem readings_board (tr : List BoardEvent) : (tr.map boardEvent).filterMap tickReading = [] := by
  induction tr with
  | nil => rfl
  | cons ev tr ih => exact ih

/-- The clock is read, and slept on, by the adapter itself. -/
theorem readings_own {i : KanbanCall} {r : i.Resp} {own : List TickEvent}
    (h : Returns (carryOutKanban i) own r) :
    own.filterMap tickReading = ([⟨i, r⟩] : List KanbanEvent).filterMap kanbanReading := by
  cases i with
  | start c =>
      obtain ⟨low, rest, o, rfl, hstart, hpure⟩ := returns_bind.1 h
      obtain ⟨tr, -, rfl⟩ := returns_board hstart
      obtain ⟨rfl, -⟩ := returns_ret.1 hpure
      rw [List.append_nil, readings_board]
      rfl
  | readTask taskId =>
      have honly : Only (fun e : TickEvent => tickReading e = none) (readTask taskId).run := by
        refine only_run_bind (fun r => ⟨rfl, trivial⟩) fun task => ?_
        cases task with
        | none => trivial
        | some task => exact only_run_bind (fun r => ⟨rfl, trivial⟩) fun run => trivial
      rw [List.filterMap_eq_nil_iff.2 (honly.mem h)]
      rfl
  | monotonic =>
      rw [show own = [⟨.monotonic, r⟩] from returns_call_ret.1 h]
      rfl
  | sleep seconds =>
      rw [show own = [⟨.sleep seconds, r⟩] from returns_call_ret.1 h]
      rfl

theorem readings_carried {tr : List KanbanEvent} {low : List TickEvent}
    (hc : Carries carryOutKanban tr low) :
    low.filterMap tickReading = tr.filterMap kanbanReading := by
  induction hc with
  | nil => rfl
  | @cons i r tr own rest hown _ ih =>
      rw [List.filterMap_append, readings_own hown, ih, ← List.filterMap_append]
      rfl

section Dispatch

variable {p : KanbanPolling} {fuel : ℕ} {c : ExecutionContext}

/-- A dispatch sleeps `⌈timeout / poll⌉` times at most. -/
theorem dispatch_in_time {low : ℚ} {own : List TickEvent} {o : Except Exc ExecutionResult}
    (h : Returns (dispatchTask p fuel c) own o) (hclock : Advances low (own.filterMap tickReading))
    (hfuel : ⌈p.timeoutSeconds / p.pollSeconds⌉₊ < fuel) :
    sleeps (own.filterMap tickReading) ≤ ⌈p.timeoutSeconds / p.pollSeconds⌉₊ := by
  unfold dispatchTask at h
  obtain ⟨own, rest, o', rfl, hadapter, hrest⟩ := returns_bind.1 h
  have hnil : rest = [] := by
    rcases o' with exc | _ | result
    · exact (returns_ret.1 hrest).1
    · obtain ⟨r, -⟩ := returns_call.1 hrest
      exact Empty.elim r
    · exact (returns_ret.1 hrest).1
  obtain ⟨tr, htr, hc⟩ := returns_handle.1 hadapter
  rw [hnil, List.append_nil, readings_carried hc] at hclock ⊢
  exact (adapter_in_time htr hclock hfuel).1

/-- A dispatch never polls on. -/
theorem not_pollOn_dispatch {low : ℚ} {own : List TickEvent}
    {k : TickCall.Resp .pollOn → Prog TickCall TickCall.Resp (Except Exc ExecutionResult)}
    (h : Reach (dispatchTask p fuel c) own (.call .pollOn k))
    (hclock : Advances low (own.filterMap tickReading)) :
    ¬ ⌈p.timeoutSeconds / p.pollSeconds⌉₊ < fuel := by
  intro hfuel
  unfold dispatchTask at h
  rcases call_at_bind h with ⟨k', hadapter⟩ | ⟨before, rest, o, rfl, hadapter, hrest⟩
  · obtain ⟨tr, i, k'', done, part, k₁, -, -, -, hcall⟩ := call_handle hadapter
    cases i with
    | start c' =>
        rcases call_at_bind hcall with ⟨k₂, hstart⟩ | ⟨_, _, _, -, -, hpure⟩
        · obtain ⟨_, _, _, -, hboard, -⟩ := call_board hstart
          cases hboard
        · exact absurd hpure not_reach_ret
    | readTask taskId => rcases readTask_call hcall with hj | hj <;> cases hj
    | monotonic => cases (eq_of_call (f := id) hcall).2
    | sleep seconds => cases (eq_of_call (f := id) hcall).2
  · rcases o with exc | _ | result
    · exact absurd hrest not_reach_ret
    · obtain ⟨tr, htr, hc⟩ := returns_handle.1 hadapter
      rw [List.filterMap_append, readings_carried hc] at hclock
      exact (adapter_in_time htr hclock.earlier hfuel).2 rfl
    · exact absurd hrest not_reach_ret

end Dispatch

/-! ## The pass -/

section Pass

variable {t : TickScope} {fuel : ℕ}

/-- Only a dispatch looks at the clock. -/
theorem readings_eq_nil {i : Call} {r : i.Resp} {own : List TickEvent}
    (h : Returns (carryOut t fuel i) own r) (hi : isDispatch i = false) :
    own.filterMap tickReading = [] := by
  refine List.filterMap_eq_nil_iff.2 fun e he => ?_
  obtain ⟨pre, post, rfl⟩ := List.append_of_mem he
  obtain ⟨k, hpre, -⟩ := h.before
  have hpart := carryOut_call hpre
  obtain ⟨j, answer⟩ := e
  cases i with
  | dispatch c => cases hi
  | lockRejected | recordBlocked => exact hpart.elim
  | moveStatus issueId status =>
      obtain ⟨_, _, -, -, hj⟩ := hpart
      cases hj
      rfl
  | event c kind payload =>
      obtain ⟨_, hj⟩ := hpart
      cases hj
      rfl
  | readIssues =>
      rcases hpart with hj | hj
      · cases hj
        rfl
      · cases hj
        rfl
  | _ =>
      cases hpart
      rfl

/-- **The sleeps of a pass** are those of its dispatches. -/
theorem carries_sleeps {low : ℚ} {tr : List CallEvent} {own : List TickEvent}
    (hc : Carries (carryOut t fuel) tr own) (hclock : Advances low (own.filterMap tickReading))
    (hfuel : ⌈t.polling.timeoutSeconds / t.polling.pollSeconds⌉₊ < fuel) :
    sleeps (own.filterMap tickReading) ≤ tr.countP (fun ev => isDispatch ev.1) *
      ⌈t.polling.timeoutSeconds / t.polling.pollSeconds⌉₊ := by
  induction hc generalizing low with
  | nil => exact Nat.zero_le _
  | @cons i r tr own rest hown _ ih =>
      rw [List.filterMap_append] at hclock ⊢
      obtain ⟨low', hlater⟩ := hclock.later
      have hrest := ih hlater
      have hsum : sleeps (own.filterMap tickReading ++ rest.filterMap tickReading) =
          sleeps (own.filterMap tickReading) + sleeps (rest.filterMap tickReading) :=
        List.countP_append
      rw [hsum]
      cases hi : isDispatch i with
      | false =>
          rw [List.countP_cons_of_neg (p := fun ev : CallEvent => isDispatch ev.1) (by simp [hi]),
            readings_eq_nil hown hi]
          exact (Nat.zero_add _).le.trans hrest
      | true =>
          rw [List.countP_cons_of_pos (p := fun ev : CallEvent => isDispatch ev.1) hi,
            Nat.succ_mul, Nat.add_comm]
          cases i
          case dispatch c =>
            exact Nat.add_le_add hrest (dispatch_in_time hown hclock.earlier hfuel)
          all_goals cases hi

/-- The guard lets through what its bound allows. -/
theorem length_guardedRead {bound : Int} (hbound : 1 ≤ bound) {own : List TickEvent}
    {snapshots : List LinearIssueSnapshot}
    (h : Returns (guardedRead bound).run own (.ok snapshots)) :
    snapshots.length ≤ bound.toNat := by
  obtain ⟨reply, nodes, -, ⟨-, -, rfl⟩ | ⟨tasks, outcome, -, hguard, rfl⟩⟩ := guardedRead_outcome h
  · exact Nat.zero_le _
  · rw [selectWithGuard_eq _ _ hbound] at hguard
    cases hguard
    exact List.length_take_le _ _

/-- A pass dispatches no more often than the bound of its read allows. -/
theorem dispatches_le {orch : RuntimeOrchestrator} {tr : List CallEvent}
    {o : Except Exc (List OrchestratorRunResult)} (h : Returns orch.runOnce.run tr o) {n : ℕ}
    (hread : ∀ snapshots, (⟨.readIssues, .ok snapshots⟩ : CallEvent) ∈ tr → snapshots.length ≤ n) :
    tr.countP (fun ev => isDispatch ev.1) ≤ n := by
  have hturn := processIssue_atMost execute_atMost_dispatch (fun _ => rfl) (fun _ _ => rfl) orch
  rcases runOnce_returns h with ⟨e, rfl⟩ | ⟨snapshots, records, turns, rfl, hrecords, hturns⟩
  · exact Nat.zero_le _
  refine (runOnce_bounded hturn rfl (fun _ _ => rfl) h fun others hmem => ?_).trans
    (hread snapshots List.mem_cons_self)
  rcases List.mem_cons.1 hmem with heq | hmem
  · cases heq
    rfl
  · rcases List.mem_append.1 hmem with hmem | hmem
    · exact (hrecords _ hmem).elim
    · rcases hturns with rfl | ⟨-, o', hturns⟩
      · cases hmem
      · obtain ⟨d, -, hd⟩ := processIssues_turns hturns _ hmem
        exact hd.elim

end Pass

/-! ## The tick -/

variable {files : Files} {environ : Mapping String} {settings : TickSettings} {fuel : ℕ}

theorem polling_of_adapter {poll timeout : ℚ} {p : KanbanPolling}
    (h : kanbanDispatchAdapter poll timeout = .ok p) :
    p.pollSeconds = poll ∧ p.timeoutSeconds = timeout := by
  unfold kanbanDispatchAdapter at h
  split at h
  · split at h
    · cases h
      exact ⟨rfl, rfl⟩
    · cases h
  · cases h

/-- **A tick ends**, whatever it is answered, on a clock that never goes back and advances with
every sleep. A whole tick sleeps no more than `⌈timeout / poll⌉` times for each issue its bound
allows; and with as many turns of the loop to look at, no tick comes to one that is not. -/
theorem tick_ends {environ' : Mapping String}
    (hexport : exportIntoEnviron files environ = .ok environ')
    (hfuel : ⌈settings.timeoutSeconds / settings.pollSeconds⌉₊ < fuel) (low : ℚ) :
    (∀ tr o, Returns (main files environ settings fuel).run tr o →
      Advances low (tr.filterMap tickReading) → sleeps (tr.filterMap tickReading) ≤
        (resolveBound environ').toNat * ⌈settings.timeoutSeconds / settings.pollSeconds⌉₊) ∧
    ∀ tr k, Advances low (tr.filterMap tickReading) →
      ¬ Reach (main files environ settings fuel).run tr (.call .pollOn k) := by
  constructor
  · intro tr o h hclock
    rcases returns_main h with ⟨-, -⟩ | ⟨e, rfl | ⟨reply, rfl⟩⟩ |
      @⟨first, nodes, t, own, o', -, hsetUp, hpass⟩
    · exact Nat.zero_le _
    · exact Nat.zero_le _
    · exact Nat.zero_le _
    obtain ⟨calls, hcalls, hc⟩ := returns_handle.1 hpass
    obtain ⟨hpoll, htimeout⟩ := polling_of_adapter hsetUp.polling
    rw [← hpoll, ← htimeout] at hfuel ⊢
    refine (carries_sleeps hc hclock hfuel).trans (Nat.mul_le_mul_right _ ?_)
    refine dispatches_le hcalls fun snapshots hmem => ?_
    obtain ⟨before, read, after, -, hread⟩ := hc.own hmem
    obtain ⟨_, _, _, hexport', -, -, hbound⟩ := hsetUp.environment
    rw [hexport] at hexport'
    cases hexport'
    rw [← hbound]
    exact length_guardedRead (hbound ▸ one_le_resolveBound environ') hread
  · intro tr k hclock h
    rcases main_call h with ⟨-, hj⟩ | ⟨first, nodes, t, own, k', rfl, -, hsetUp, hpass⟩
    · cases hj
    obtain ⟨hpoll, htimeout⟩ := polling_of_adapter hsetUp.polling
    rw [← hpoll, ← htimeout] at hfuel
    rcases tick_call hpass with ⟨hread⟩ | ⟨hj⟩ | ⟨i, hdone, rfl, hpart, -, -, -⟩
    · rcases guardedRead_call hread with hj | hj <;> cases hj
    · cases hj
    · have hpartOf := carryOut_call hpart
      cases i with
      | dispatch c =>
          rw [List.filterMap_cons_none rfl, List.filterMap_append] at hclock
          obtain ⟨low', hlater⟩ := hclock.later
          exact not_pollOn_dispatch hpart hlater hfuel
      | lockRejected | recordBlocked => exact hpartOf
      | moveStatus issueId status =>
          obtain ⟨_, _, -, -, hj⟩ := hpartOf
          cases hj
      | event c kind payload =>
          obtain ⟨_, hj⟩ := hpartOf
          cases hj
      | readIssues => rcases hpartOf with hj | hj <;> cases hj
      | _ => cases hpartOf

/-- The card of the issue keeps running, and the clock shows the time slept and nothing else. -/
def runningAnswers (clock : ℚ) : (i : TickCall) → Option (i.Resp × ℚ)
  | .monotonic => some (clock, clock)
  | .sleep seconds => some ((), clock + seconds)
  | .getTask _ => some (.ok (some { status := "running" }), clock)
  | i => (sampleAnswers i).map fun r => (r, clock)

/-- A tick with twelve seconds for a run. -/
def shortSettings : TickSettings := { timeoutSeconds := 12 }

/-- The tick that `runningAnswers` answers. -/
def runningTick : List TickEvent × Prog TickCall TickCall.Resp (Except Exc ℕ) × ℚ :=
  Semantics.alone runningAnswers (main sampleFiles sampleEnviron shortSettings 4).run 0

/-- It sleeps three times, gives up and ends with 1. -/
theorem tick_ends_sample : ∃ environ',
    exportIntoEnviron sampleFiles sampleEnviron = .ok environ' ∧
    Returns (main sampleFiles sampleEnviron shortSettings 4).run runningTick.1 (.ok 1) ∧
    Advances 0 (runningTick.1.filterMap tickReading) ∧
    sleeps (runningTick.1.filterMap tickReading) = 3 ∧
    sleeps (runningTick.1.filterMap tickReading) ≤ (resolveBound environ').toNat *
      ⌈shortSettings.timeoutSeconds / shortSettings.pollSeconds⌉₊ ∧
    ∀ tr k, Advances 0 (tr.filterMap tickReading) →
      ¬ Reach (main sampleFiles sampleEnviron shortSettings 4).run tr (.call .pollOn k) := by
  obtain ⟨environ', hexport⟩ : ∃ environ', exportIntoEnviron sampleFiles sampleEnviron =
      .ok environ' := ⟨_, rfl⟩
  have hfuel : ⌈shortSettings.timeoutSeconds / shortSettings.pollSeconds⌉₊ < 4 := by
    decide +kernel
  have hend : runningTick.2.1 = .ret (.ok 1) := ret_of_result (by decide +kernel)
  have hrun : Returns (main sampleFiles sampleEnviron shortSettings 4).run runningTick.1
      (.ok 1) := by
    have hreach : Reach _ runningTick.1 runningTick.2.1 := Semantics.reach_alone _ _ _
    rw [hend] at hreach
    exact hreach
  have hclock : Advances 0 (runningTick.1.filterMap tickReading) := by decide +kernel
  have hends := tick_ends hexport hfuel 0
  exact ⟨environ', hexport, hrun, hclock, by decide +kernel, hends.1 _ _ hrun hclock, hends.2⟩

end HermesRuntime
