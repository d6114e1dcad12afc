import HermesRuntime.KanbanCalls
import HermesRuntime.KanbanProof
import Mathlib.Data.Rat.Floor

/-!
# The Kanban adapter ends

The loop of the adapter counts nothing: what brings it to an end is the clock, which it compares
with a deadline read before the loop. A turn that goes on has read the clock before the deadline
and sleeps, so the distance to the deadline shrinks by the poll interval with every turn.

* `ClockAdvances` — what is asked of the clock.
* `pollLoop_returns` — what one turn of the loop can do.
* `kanban_terminates` — the adapter ends, after `⌈timeout / poll⌉` sleeps at most.
-/

namespace HermesRuntime

open Effects Prog KanbanProc KanbanDispatcherAdapter

/-! ## Clocks -/

/-- No reading is below the one before it, nor below it by less than the poll interval for each
sleep in between; the first is at least `low`. -/
def ClockAdvances (pollSeconds : ℚ) : ℚ → List KanbanEvent → Prop
  | _, [] => True
  | low, ⟨.monotonic, now⟩ :: tr => low ≤ now ∧ ClockAdvances pollSeconds now tr
  | low, ⟨.sleep _, _⟩ :: tr => ClockAdvances pollSeconds (low + pollSeconds) tr
  | low, ⟨.start _, _⟩ :: tr => ClockAdvances pollSeconds low tr
  | low, ⟨.readTask _, _⟩ :: tr => ClockAdvances pollSeconds low tr

/-- The event is a sleep. -/
def isSleep (e : KanbanEvent) : Bool :=
  match e.1 with
  | .sleep _ => true
  | _ => false

/-- A callback that raised. -/
def CallbackRaised (tr : List KanbanEvent) : Prop :=
  (∃ c exc, (⟨.start c, .error exc⟩ : KanbanEvent) ∈ tr) ∨
    ∃ taskId exc, (⟨.readTask taskId, .error exc⟩ : KanbanEvent) ∈ tr

theorem CallbackRaised.append {tr : List KanbanEvent} (h : CallbackRaised tr)
    (before : List KanbanEvent) : CallbackRaised (before ++ tr) := by
  rcases h with ⟨c, exc, h⟩ | ⟨taskId, exc, h⟩
  · exact Or.inl ⟨c, exc, List.mem_append_right _ h⟩
  · exact Or.inr ⟨taskId, exc, List.mem_append_right _ h⟩

/-! ## One turn -/

theorem returns_monotonic {tr : List KanbanEvent} {o : Except Exc ℚ} :
    Returns KanbanProc.monotonic.run tr o ↔ ∃ now, tr = [⟨.monotonic, now⟩] ∧ o = .ok now := by
  have hrun : KanbanProc.monotonic.run = .call .monotonic fun now => .ret (.ok now) := rfl
  rw [hrun, returns_call]
  constructor
  · rintro ⟨now, tr', rfl, h⟩
    obtain ⟨rfl, rfl⟩ := returns_ret.1 h
    exact ⟨now, rfl, rfl⟩
  · rintro ⟨now, rfl, rfl⟩
    exact ⟨now, [], rfl, returns_ret.2 ⟨rfl, rfl⟩⟩

theorem returns_sleep {seconds : ℚ} {tr : List KanbanEvent} {o : Except Exc Unit} :
    Returns (KanbanProc.sleep seconds).run tr o ↔ tr = [⟨.sleep seconds, ()⟩] ∧ o = .ok () := by
  have hrun : (KanbanProc.sleep seconds).run =
      .call (.sleep seconds) fun _ => .ret (.ok ()) := rfl
  rw [hrun, returns_call]
  constructor
  · rintro ⟨_, tr', rfl, h⟩
    obtain ⟨rfl, rfl⟩ := returns_ret.1 h
    exact ⟨rfl, rfl⟩
  · rintro ⟨rfl, rfl⟩
    exact ⟨(), [], rfl, returns_ret.2 ⟨rfl, rfl⟩⟩

theorem returns_readTask {taskId : String} {tr : List KanbanEvent}
    {o : Except Exc KanbanTaskSnapshot} :
    Returns (KanbanProc.readTask taskId).run tr o ↔ tr = [⟨.readTask taskId, o⟩] :=
  returns_call_ret

section Loop

variable {p : KanbanPolling} {c : ExecutionContext} {taskId lastStatus : String}
  {deadline : ℚ} {fuel : ℕ} {snapshot : KanbanTaskSnapshot}
  {events : List (String × RawPayload)} {tr : List KanbanEvent}
  {o : Except Exc (Option (LoopEnd × KanbanTaskSnapshot × List (String × RawPayload)))}

/-- **What one turn of the loop can do**: it ends the loop without a sleep, or it has read the
clock before the deadline, sleeps and reads the task. -/
theorem pollLoop_returns
    (h : Returns (pollLoop p c taskId deadline (fuel + 1) snapshot lastStatus events).run tr o) :
    ((tr = [] ∨ ∃ now, tr = [⟨.monotonic, now⟩]) ∧
      ∃ ending, o = .ok (some (ending, snapshot, events)) ∧ ∀ exc, ending ≠ .raised exc) ∨
    ∃ now answer tr', now < deadline ∧
      tr = ⟨.monotonic, now⟩ :: ⟨.sleep p.pollSeconds, ()⟩ :: ⟨.readTask taskId, answer⟩ :: tr' ∧
      ((∃ exc, answer = .error exc ∧ tr' = [] ∧ o = .error exc) ∨
        ∃ next lastStatus' events', answer = .ok next ∧
          Returns (pollLoop p c taskId deadline fuel next lastStatus' events').run tr' o) := by
  unfold pollLoop at h
  split at h
  · obtain ⟨rfl, rfl⟩ := returns_pure.1 h
    exact Or.inl ⟨Or.inl rfl, .terminal, rfl, fun exc heq => by cases heq⟩
  split at h
  · obtain ⟨rfl, rfl⟩ := returns_pure.1 h
    exact Or.inl ⟨Or.inl rfl, .failed _, rfl, fun exc heq => by cases heq⟩
  rcases returns_run_bind.1 h with ⟨_, tr₁, now, rfl, hclock, h₁⟩ | ⟨_, hclock, -⟩
  swap
  · obtain ⟨_, -, hno⟩ := returns_monotonic.1 hclock
    cases hno
  obtain ⟨_, rfl, heq⟩ := returns_monotonic.1 hclock
  cases heq
  split at h₁
  · obtain ⟨rfl, rfl⟩ := returns_pure.1 h₁
    exact Or.inl ⟨Or.inr ⟨now, rfl⟩, .timeout, rfl, fun exc heq => by cases heq⟩
  rename_i hearly
  rcases returns_run_bind.1 h₁ with ⟨_, tr₂, _, rfl, hsleep, h₂⟩ | ⟨_, hsleep, -⟩
  swap
  · cases (returns_sleep.1 hsleep).2
  obtain ⟨rfl, -⟩ := returns_sleep.1 hsleep
  right
  rcases returns_run_bind.1 h₂ with ⟨_, tr₃, next, rfl, hread, h₃⟩ | ⟨exc, hread, rfl⟩
  · obtain rfl := returns_readTask.1 hread
    refine ⟨now, .ok next, tr₃, not_le.1 hearly, rfl, Or.inr ?_⟩
    split at h₃
    · exact ⟨next, _, _, rfl, h₃⟩
    · exact ⟨next, _, _, rfl, h₃⟩
  · obtain rfl := returns_readTask.1 hread
    exact ⟨now, .error exc, [], not_le.1 hearly, rfl, Or.inl ⟨exc, rfl, rfl, rfl⟩⟩

/-- **The loop ends before it has slept too often.** -/
theorem pollLoop_ends {n : ℕ} {low : ℚ}
    (h : Returns (pollLoop p c taskId deadline fuel snapshot lastStatus events).run tr o)
    (hclock : ClockAdvances p.pollSeconds low tr)
    (hn : deadline ≤ low + n * p.pollSeconds) (hfuel : n < fuel) :
    tr.countP isSleep ≤ n ∧
      ((∃ ending snapshot events, o = .ok (some (ending, snapshot, events)) ∧
        ∀ exc, ending ≠ .raised exc) ∨ CallbackRaised tr ∧ ∃ exc, o = .error exc) := by
  induction n generalizing fuel low snapshot lastStatus events tr with
  | zero =>
      obtain ⟨fuel, rfl⟩ := Nat.exists_eq_add_one_of_ne_zero (Nat.ne_zero_of_lt hfuel)
      rcases pollLoop_returns h with ⟨htr, ending, ho, hending⟩ |
        ⟨now, answer, tr', hearly, rfl, -⟩
      · refine ⟨?_, Or.inl ⟨ending, _, _, ho, hending⟩⟩
        rcases htr with rfl | ⟨now, rfl⟩ <;> exact Nat.zero_le _
      · have hlow : low ≤ now := hclock.1
        rw [Nat.cast_zero, zero_mul, add_zero] at hn
        exact absurd (hn.trans hlow) (not_le.2 hearly)
  | succ n ih =>
      obtain ⟨fuel, rfl⟩ := Nat.exists_eq_add_one_of_ne_zero (Nat.ne_zero_of_lt hfuel)
      rcases pollLoop_returns h with ⟨htr, ending, ho, hending⟩ |
        ⟨now, answer, tr', hearly, rfl, hnext⟩
      · refine ⟨?_, Or.inl ⟨ending, _, _, ho, hending⟩⟩
        rcases htr with rfl | ⟨now, rfl⟩ <;> exact Nat.zero_le _
      · obtain ⟨hlow, hrest⟩ : low ≤ now ∧
            ClockAdvances p.pollSeconds (now + p.pollSeconds) tr' := hclock
        rcases hnext with ⟨exc, rfl, rfl, rfl⟩ | ⟨next, lastStatus', events', rfl, hloop⟩
        · have hraised : CallbackRaised [⟨.monotonic, now⟩, ⟨.sleep p.pollSeconds, ()⟩,
              ⟨.readTask taskId, .error exc⟩] := Or.inr ⟨taskId, exc, by simp⟩
          exact ⟨Nat.succ_le_succ (Nat.zero_le n), Or.inr ⟨hraised, exc, rfl⟩⟩
        · have hstep : deadline ≤ now + p.pollSeconds + n * p.pollSeconds := by
            push_cast at hn
            linarith
          obtain ⟨hcount, hend⟩ := ih hloop hrest hstep (by omega)
          have hone : (⟨.monotonic, now⟩ :: ⟨.sleep p.pollSeconds, ()⟩ ::
              ⟨.readTask taskId, .ok next⟩ :: tr' : List KanbanEvent).countP isSleep =
                tr'.countP isSleep + 1 := by
            simp [List.countP_cons, isSleep]
          rw [hone]
          exact ⟨Nat.succ_le_succ hcount, hend.imp_right fun ⟨hraised, hexc⟩ =>
            ⟨hraised.append [_, _, _], hexc⟩⟩

end Loop

/-! ## The adapter -/

/-- Until it has the first snapshot, the adapter neither reads the clock nor sleeps. -/
theorem first_returns {c : ExecutionContext} {tr : List KanbanEvent}
    {o : Except Exc KanbanTaskSnapshot}
    (h : Returns (KanbanProc.start c >>= firstSnapshot).run tr o) :
    ((∃ snapshot, o = .ok snapshot) ∨ CallbackRaised tr ∧ ∃ exc, o = .error exc) ∧
      tr.countP isSleep = 0 ∧ ∀ {pollSeconds low : ℚ} {rest : List KanbanEvent},
        ClockAdvances pollSeconds low (tr ++ rest) → ClockAdvances pollSeconds low rest := by
  rcases returns_run_bind.1 h with ⟨_, tr', answer, rfl, hstart, h'⟩ | ⟨exc, hstart, rfl⟩
  · obtain rfl := returns_call_ret.1 hstart
    cases answer with
    | inr snapshot =>
        obtain ⟨rfl, rfl⟩ := returns_pure.1 h'
        exact ⟨Or.inl ⟨snapshot, rfl⟩, by simp [isSleep], fun hclock => hclock⟩
    | inl taskId =>
        obtain rfl := returns_readTask.1 h'
        refine ⟨?_, by simp [isSleep], fun hclock => hclock⟩
        cases o with
        | ok snapshot => exact Or.inl ⟨snapshot, rfl⟩
        | error exc => exact Or.inr ⟨Or.inr ⟨taskId, exc, by simp⟩, exc, rfl⟩
  · obtain rfl := returns_call_ret.1 hstart
    exact ⟨Or.inr ⟨Or.inl ⟨c, exc, by simp⟩, exc, rfl⟩, by simp [isSleep], fun hclock => hclock⟩

/-- What an ended loop comes to. -/
theorem concludeLoop_returns {c : ExecutionContext} {ending : LoopEnd}
    {snapshot : KanbanTaskSnapshot} {events : List (String × RawPayload)} {tr : List KanbanEvent}
    {o : Except Exc (Option ExecutionResult)} (hending : ∀ exc, ending ≠ .raised exc)
    (h : Returns (concludeLoop c (some (ending, snapshot, events))).run tr o) :
    (∃ result, o = .ok (some result)) ∨
      ∃ errorType events, o = .error (.executionEventError errorType events) := by
  obtain ⟨-, rfl⟩ := returns_ret.1 h
  cases ending with
  | raised exc => exact absurd rfl (hending exc)
  | failed outcome => exact Or.inr ⟨_, _, rfl⟩
  | timeout => exact Or.inr ⟨_, _, rfl⟩
  | terminal =>
      unfold conclude
      dsimp only
      split
      · exact Or.inl ⟨_, rfl⟩
      · exact Or.inl ⟨_, rfl⟩

/-- **The adapter ends**, whatever snapshots it is shown, on any clock that never goes back and
advances by the poll interval with every sleep: after `⌈timeout / poll⌉` sleeps at most, by
returning, by raising an `ExecutionEventError`, or by what a callback raised. -/
theorem kanban_terminates {p : KanbanPolling} {c : ExecutionContext} {fuel : ℕ} {low : ℚ}
    {tr : List KanbanEvent} {o : Except Exc (Option ExecutionResult)}
    (h : Returns (adapterCall p fuel c).run tr o) (hclock : ClockAdvances p.pollSeconds low tr)
    (hfuel : ⌈p.timeoutSeconds / p.pollSeconds⌉₊ < fuel) :
    tr.countP isSleep ≤ ⌈p.timeoutSeconds / p.pollSeconds⌉₊ ∧
      ((∃ result, o = .ok (some result)) ∨
        (∃ errorType events, o = .error (.executionEventError errorType events)) ∨
        CallbackRaised tr ∧ ∃ exc, o = .error exc) := by
  have hassoc : adapterCall p fuel c = ((KanbanProc.start c >>= firstSnapshot) >>=
      fun snapshot => do
        let now ← KanbanProc.monotonic
        let ended ← pollLoop p c snapshot.taskId (now + p.timeoutSeconds) fuel snapshot
          snapshot.status [kanbanEvent "kanban.dispatched" c snapshot ∅]
        concludeLoop c ended) := by
    rw [bind_assoc]
    rfl
  rw [hassoc] at h
  rcases returns_run_bind.1 h with ⟨tr₁, tr₂, snapshot, rfl, hfirst, h₂⟩ | ⟨exc, hfirst, rfl⟩
  swap
  · obtain ⟨hraised, hnone, -⟩ := first_returns hfirst
    rw [hnone]
    rcases hraised with ⟨_, hno⟩ | ⟨hraised, -⟩
    · cases hno
    · exact ⟨Nat.zero_le _, Or.inr (Or.inr ⟨hraised, exc, rfl⟩)⟩
  obtain ⟨-, hnone, hskip⟩ := first_returns hfirst
  replace hclock := hskip hclock
  rcases returns_run_bind.1 h₂ with ⟨_, tr₃, now, rfl, hread, h₃⟩ | ⟨_, hread, -⟩
  swap
  · obtain ⟨_, -, hno⟩ := returns_monotonic.1 hread
    cases hno
  obtain ⟨_, rfl, heq⟩ := returns_monotonic.1 hread
  cases heq
  have hdeadline : now + p.timeoutSeconds ≤
      now + ⌈p.timeoutSeconds / p.pollSeconds⌉₊ * p.pollSeconds := by
    have hceil := Nat.le_ceil (p.timeoutSeconds / p.pollSeconds)
    rw [div_le_iff₀ p.poll_pos] at hceil
    linarith
  have hcount : ∀ tr' : List KanbanEvent,
      (tr₁ ++ (⟨.monotonic, now⟩ :: tr' : List KanbanEvent)).countP isSleep =
        tr'.countP isSleep := by
    intro tr'
    rw [List.countP_append, hnone]
    simp [isSleep]
  rcases returns_run_bind.1 h₃ with ⟨tr₄, tr₅, ended, rfl, hloop, h₄⟩ | ⟨exc, hloop, rfl⟩
  · obtain rfl : tr₅ = [] := by
      cases ended <;> exact (returns_ret.1 h₄).1
    rw [List.append_nil] at hclock ⊢
    obtain ⟨hsleeps, hend⟩ := pollLoop_ends hloop hclock.2 hdeadline hfuel
    rw [List.singleton_append, hcount]
    refine ⟨hsleeps, ?_⟩
    rcases hend with ⟨ending, last, events, heq, hending⟩ | ⟨-, _, hno⟩
    · cases heq
      exact (concludeLoop_returns hending h₄).imp_right Or.inl
    · cases hno
  · obtain ⟨hsleeps, hend⟩ := pollLoop_ends hloop hclock.2 hdeadline hfuel
    rw [List.singleton_append, hcount]
    refine ⟨hsleeps, Or.inr (Or.inr ?_)⟩
    rcases hend with ⟨_, _, _, hno, -⟩ | ⟨hraised, _⟩
    · cases hno
    · exact ⟨(hraised.append [⟨.monotonic, now⟩]).append tr₁, exc, rfl⟩

instance decidableClockAdvances (pollSeconds : ℚ) :
    ∀ low tr, Decidable (ClockAdvances pollSeconds low tr)
  | _, [] => inferInstanceAs (Decidable True)
  | low, ⟨.monotonic, (now : ℚ)⟩ :: tr =>
      have := decidableClockAdvances pollSeconds now tr
      show Decidable (low ≤ now ∧ ClockAdvances pollSeconds now tr) from instDecidableAnd
  | low, ⟨.sleep _, _⟩ :: tr => decidableClockAdvances pollSeconds (low + pollSeconds) tr
  | low, ⟨.start _, _⟩ :: tr => decidableClockAdvances pollSeconds low tr
  | low, ⟨.readTask _, _⟩ :: tr => decidableClockAdvances pollSeconds low tr

/-- A task that somebody has archived. -/
def archivedTask : KanbanTaskSnapshot := { taskId := "t_1", status := "archived" }

/-- It stays so, on a clock that shows the time slept and nothing else. -/
def archivedAdapter : KanbanDispatcherAdapter where
  start := fun _ => .ok (.inl "t_1")
  readTask := fun _ _ => .ok archivedTask
  monotonic := fun n => 5 * ((n - 1 : ℕ) : ℚ)
  timeoutSeconds := 12
  timeout_pos := by norm_num

/-- The adapter's run, where it asks every five seconds. -/
def archivedRun : List KanbanEvent × Except Exc (Option ExecutionResult) :=
  archivedAdapter.run (archivedAdapter.polling 5 rfl) 4 sampleContext

/-- It sleeps three times, and then the time is up. -/
theorem archived_terminates : archivedRun.1.countP isSleep = 3 ∧
    archivedRun.2 = .error (.executionEventError "TimeoutError"
      [kanbanEvent "kanban.dispatched" sampleContext archivedTask ∅,
        kanbanEvent "kanban.timeout" sampleContext archivedTask ∅]) ∧
    archivedRun.1.countP isSleep ≤ ⌈(12 : ℚ) / 5⌉₊ ∧
      ((∃ result, archivedRun.2 = .ok (some result)) ∨
        (∃ errorType events, archivedRun.2 = .error (.executionEventError errorType events)) ∨
        CallbackRaised archivedRun.1 ∧ ∃ exc, archivedRun.2 = .error exc) := by
  have hrun := returns_serve archivedAdapter.answer (0, 0)
    (adapterCall (archivedAdapter.polling 5 rfl) 4 sampleContext).run
  have hclock : ClockAdvances 5 0 archivedRun.1 := by decide +kernel
  have hfuel : ⌈(12 : ℚ) / 5⌉₊ < 4 := by decide +kernel
  exact ⟨by decide +kernel, by with_unfolding_all rfl, kanban_terminates hrun hclock hfuel⟩

end HermesRuntime
