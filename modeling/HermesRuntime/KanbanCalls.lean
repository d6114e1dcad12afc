import HermesRuntime.Kanban
import HermesRuntime.Lib.Prog

/-!
# The calls of the Kanban adapter

The adapter as a program over its callbacks: `start`, `read_task`, the clock and `sleep`. What it
returns is what the adapter of `Kanban` returns; here its calls can be counted as well.

* `adapterCall` — `__call__`, on fuel.
* `serve_pollLoop` — its loop against the answers of a `KanbanDispatcherAdapter`.
-/

namespace HermesRuntime

open Effects Prog

/-- The calls of the adapter. -/
inductive KanbanCall where
  | start (context : ExecutionContext)
  | readTask (taskId : String)
  | monotonic
  | sleep (seconds : ℚ)
  deriving DecidableEq

/-- What comes back from a call of the adapter. -/
def KanbanCall.Resp : KanbanCall → Type
  | .start _ => Except Exc (String ⊕ KanbanTaskSnapshot)
  | .readTask _ => Except Exc KanbanTaskSnapshot
  | .monotonic => ℚ
  | .sleep _ => Unit

/-- A call of the adapter with its answer. -/
abbrev KanbanEvent : Type := Event KanbanCall KanbanCall.Resp

/-- A program that calls the adapter's callbacks and may raise. -/
abbrev KanbanProc (α : Type) : Type := ExceptT Exc (Prog KanbanCall KanbanCall.Resp) α

namespace KanbanProc

def start (context : ExecutionContext) : KanbanProc (String ⊕ KanbanTaskSnapshot) :=
  ExceptT.mk (.call (.start context) .ret)

def readTask (taskId : String) : KanbanProc KanbanTaskSnapshot :=
  ExceptT.mk (.call (.readTask taskId) .ret)

def monotonic : KanbanProc ℚ := ExceptT.lift (.call .monotonic .ret)

def sleep (seconds : ℚ) : KanbanProc Unit := ExceptT.lift (.call (.sleep seconds) .ret)

end KanbanProc

open KanbanProc KanbanDispatcherAdapter

/-- The two durations of the adapter, and what its constructor checks of them. -/
structure KanbanPolling where
  pollSeconds : ℚ
  timeoutSeconds : ℚ
  poll_pos : 0 < pollSeconds
  timeout_pos : 0 < timeoutSeconds

/-- The `while` loop: how it ends, at which snapshot, and with which events. -/
def pollLoop (p : KanbanPolling) (context : ExecutionContext) (taskId : String) (deadline : ℚ) :
    Nat → KanbanTaskSnapshot → String → List (String × RawPayload) →
      KanbanProc (Option (LoopEnd × KanbanTaskSnapshot × List (String × RawPayload)))
  | 0, _, _, _ => pure none
  | fuel + 1, snapshot, lastStatus, events =>
      if snapshot.status ∈ terminalDoneStatuses ++ terminalBlockedStatuses then
        pure (some (.terminal, snapshot, events))
      else
        match failedOutcome snapshot with
        | some outcome => pure (some (.failed outcome, snapshot, events))
        | none => do
            let now ← monotonic
            if deadline ≤ now then
              pure (some (.timeout, snapshot, events))
            else do
              sleep p.pollSeconds
              let next ← readTask taskId
              if next.status ≠ lastStatus then
                pollLoop p context taskId deadline fuel next next.status
                  (events ++ [kanbanEvent "kanban.status_changed" context next ∅])
              else
                pollLoop p context taskId deadline fuel next lastStatus events

/-- `snapshot = initial if isinstance(initial, KanbanTaskSnapshot) else self._read_task(initial)` -/
def firstSnapshot : String ⊕ KanbanTaskSnapshot → KanbanProc KanbanTaskSnapshot
  | .inr snapshot => pure snapshot
  | .inl taskId => readTask taskId

/-- What follows the loop: nothing where it ran out of fuel. -/
def concludeLoop (context : ExecutionContext) :
    Option (LoopEnd × KanbanTaskSnapshot × List (String × RawPayload)) →
      KanbanProc (Option ExecutionResult)
  | none => pure none
  | some (ending, snapshot, events) =>
      ExceptT.mk (.ret ((conclude context ending snapshot events).map some))

/-- `__call__` -/
def adapterCall (p : KanbanPolling) (fuel : Nat) (context : ExecutionContext) :
    KanbanProc (Option ExecutionResult) := do
  let initial ← start context
  let snapshot ← firstSnapshot initial
  let now ← monotonic
  let ended ← pollLoop p context snapshot.taskId (now + p.timeoutSeconds) fuel snapshot
    snapshot.status [kanbanEvent "kanban.dispatched" context snapshot ∅]
  concludeLoop context ended

/-! ## Against an adapter's answers -/

namespace KanbanDispatcherAdapter

/-- The answers of the callbacks, by how many reads and clock readings there have been. -/
def answer (a : KanbanDispatcherAdapter) : Nat × Nat → (i : KanbanCall) → i.Resp × (Nat × Nat)
  | s, .start context => (a.start context, s)
  | (reads, checks), .readTask taskId => (a.readTask reads taskId, (reads + 1, checks))
  | (reads, checks), .monotonic => (a.monotonic checks, (reads, checks + 1))
  | s, .sleep _ => ((), s)

/-- How often it sleeps for the adapter's timeout. -/
def polling (a : KanbanDispatcherAdapter) (pollSeconds : ℚ) (h : 0 < pollSeconds) :
    KanbanPolling :=
  ⟨pollSeconds, a.timeoutSeconds, h, a.timeout_pos⟩

/-- The adapter's run: its calls with their answers, and what it came to. -/
def run (a : KanbanDispatcherAdapter) (p : KanbanPolling) (fuel : Nat)
    (context : ExecutionContext) : List KanbanEvent × Except Exc (Option ExecutionResult) :=
  ((serve a.answer (0, 0) (adapterCall p fuel context).run).1,
    (serve a.answer (0, 0) (adapterCall p fuel context).run).2.1)

variable {a : KanbanDispatcherAdapter} {reads checks : ℕ}

theorem serve_start {c : ExecutionContext} {answer : Except Exc (String ⊕ KanbanTaskSnapshot)}
    (h : a.start c = answer) : serve a.answer (reads, checks) (KanbanProc.start c).run =
      ([⟨.start c, answer⟩], answer, (reads, checks)) := by
  rw [← h]
  rfl

theorem serve_monotonic : serve a.answer (reads, checks) KanbanProc.monotonic.run =
    ([⟨.monotonic, a.monotonic checks⟩], .ok (a.monotonic checks), (reads, checks + 1)) := rfl

theorem serve_sleep (seconds : ℚ) :
    serve a.answer (reads, checks) (KanbanProc.sleep seconds).run =
      ([⟨.sleep seconds, ()⟩], .ok (), (reads, checks)) := rfl

theorem serve_readTask {taskId : String} {answer : Except Exc KanbanTaskSnapshot}
    (h : a.readTask reads taskId = answer) :
    serve a.answer (reads, checks) (KanbanProc.readTask taskId).run =
      ([⟨.readTask taskId, answer⟩], answer, (reads + 1, checks)) := by
  rw [← h]
  rfl

end KanbanDispatcherAdapter

/-! ## Where the loop ends -/

/-- How the adapter closes its trace. -/
inductive Closing where
  | done
  | blocked
  | failed (outcome : String)
  | timeout
  deriving DecidableEq

/-- What closes the trace at a snapshot: its status, the outcome of its latest run, or the clock,
in this order. -/
def closingAt (deadline : ℚ) (snapshot : KanbanTaskSnapshot) (reading : ℚ) : Option Closing :=
  if snapshot.status = "done" then some .done
  else if snapshot.status = "blocked" then some .blocked
  else
    match snapshot.outcome.filter (· ∈ ["failed", "timed_out", "spawn_failed", "rate_limited"]) with
    | some outcome => some (.failed outcome)
    | none => if deadline ≤ reading then some .timeout else none

/-- How the loop ends then. -/
def Closing.loopEnd : Closing → LoopEnd
  | .done | .blocked => .terminal
  | .failed outcome => .failed outcome
  | .timeout => .timeout

/-- The clock is read once more where nothing else has closed the trace. -/
def Closing.lastReading : Closing → List KanbanCall
  | .timeout => [.monotonic]
  | _ => []

/-- The status changes among the snapshots after the `i`-th, up to the `i + n`-th. -/
def statusChanges (c : ExecutionContext) (s : ℕ → KanbanTaskSnapshot) (i n : ℕ) :
    List (String × RawPayload) :=
  ((List.range' (i + 1) n).filter fun j => (s j).status ≠ (s (j - 1)).status).map fun j =>
    kanbanEvent "kanban.status_changed" c (s j) ∅

theorem statusChanges_succ (c : ExecutionContext) (s : ℕ → KanbanTaskSnapshot) (i n : ℕ) :
    statusChanges c s i (n + 1) =
      (if (s (i + 1)).status ≠ (s i).status then
        [kanbanEvent "kanban.status_changed" c (s (i + 1)) ∅] else []) ++
          statusChanges c s (i + 1) n := by
  unfold statusChanges
  rw [List.range'_succ, List.filter_cons]
  by_cases h : (s (i + 1)).status = (s i).status
  · simp [h]
  · simp [h]

/-- A turn of the loop that goes on. -/
def turn (p : KanbanPolling) (taskId : String) : List KanbanCall :=
  [.monotonic, .sleep p.pollSeconds, .readTask taskId]

theorem closingAt_eq_none {deadline reading : ℚ} {snapshot : KanbanTaskSnapshot}
    (h : closingAt deadline snapshot reading = none) :
    snapshot.status ∉ terminalDoneStatuses ++ terminalBlockedStatuses ∧
      failedOutcome snapshot = none ∧ ¬ deadline ≤ reading := by
  unfold closingAt at h
  split at h
  · cases h
  rename_i hdone
  split at h
  · cases h
  rename_i hblocked
  split at h
  · cases h
  rename_i houtcome
  refine ⟨by simp [terminalDoneStatuses, terminalBlockedStatuses, hdone, hblocked], houtcome, ?_⟩
  intro hle
  rw [if_pos hle] at h
  cases h

section Loop

variable {a : KanbanDispatcherAdapter} {p : KanbanPolling} {c : ExecutionContext}
  {taskId : String} {deadline : ℚ} {closing : Closing}

/-- The last turn of the loop. -/
theorem serve_pollLoop_last {fuel reads checks : ℕ} {snapshot : KanbanTaskSnapshot}
    {lastStatus : String} {events : List (String × RawPayload)}
    (h : closingAt deadline snapshot (a.monotonic checks) = some closing) :
    ∃ tr s', serve a.answer (reads, checks)
        (pollLoop p c taskId deadline (fuel + 1) snapshot lastStatus events).run =
          (tr, .ok (some (closing.loopEnd, snapshot, events)), s') ∧
      tr.map (·.1) = closing.lastReading := by
  unfold closingAt at h
  unfold pollLoop
  by_cases hdone : snapshot.status = "done"
  · rw [if_pos hdone] at h
    cases h
    rw [if_pos (by simp [terminalDoneStatuses, hdone])]
    exact ⟨[], (reads, checks), rfl, rfl⟩
  rw [if_neg hdone] at h
  by_cases hblocked : snapshot.status = "blocked"
  · rw [if_pos hblocked] at h
    cases h
    rw [if_pos (by simp [terminalBlockedStatuses, hblocked])]
    exact ⟨[], (reads, checks), rfl, rfl⟩
  rw [if_neg hblocked] at h
  rw [if_neg (by simp [terminalDoneStatuses, terminalBlockedStatuses, hdone, hblocked])]
  cases houtcome : failedOutcome snapshot with
  | some outcome =>
      have hfilter : snapshot.outcome.filter
          (· ∈ ["failed", "timed_out", "spawn_failed", "rate_limited"]) = some outcome := houtcome
      rw [hfilter] at h
      cases h
      exact ⟨[], (reads, checks), rfl, rfl⟩
  | none =>
      have hfilter : snapshot.outcome.filter
          (· ∈ ["failed", "timed_out", "spawn_failed", "rate_limited"]) = none := houtcome
      rw [hfilter] at h
      by_cases hle : deadline ≤ a.monotonic checks
      · rw [if_pos hle] at h
        cases h
        refine ⟨[⟨.monotonic, a.monotonic checks⟩], (reads, checks + 1), ?_, rfl⟩
        rw [serve_run_bind serve_monotonic, if_pos hle]
        rfl
      · rw [if_neg hle] at h
        cases h

/-- **The loop's run**: as many turns as there are snapshots that close nothing, and a
`kanban.status_changed` for each change among those read. -/
theorem serve_pollLoop {s : ℕ → KanbanTaskSnapshot} {reads i n fuel : ℕ}
    (hreads : ∀ j, a.readTask (reads + j) taskId = .ok (s (j + 1)))
    (hbefore : ∀ j, i ≤ j → j < i + n → closingAt deadline (s j) (a.monotonic (j + 1)) = none)
    (hend : closingAt deadline (s (i + n)) (a.monotonic (i + n + 1)) = some closing)
    (hfuel : n < fuel) (events : List (String × RawPayload)) :
    ∃ tr s', serve a.answer (reads + i, i + 1)
        (pollLoop p c taskId deadline fuel (s i) (s i).status events).run =
          (tr, .ok (some (closing.loopEnd, s (i + n), events ++ statusChanges c s i n)), s') ∧
      tr.map (·.1) = (List.replicate n (turn p taskId)).flatten ++ closing.lastReading := by
  induction n generalizing i fuel events with
  | zero =>
      obtain ⟨fuel, rfl⟩ := Nat.exists_eq_add_one_of_ne_zero (Nat.ne_zero_of_lt hfuel)
      have hnone : events ++ statusChanges c s i 0 = events := List.append_nil _
      rw [hnone]
      exact serve_pollLoop_last hend
  | succ n ih =>
      obtain ⟨fuel, rfl⟩ := Nat.exists_eq_add_one_of_ne_zero (Nat.ne_zero_of_lt hfuel)
      obtain ⟨hstatus, hfailed, hclock⟩ := closingAt_eq_none (hbefore i le_rfl (by omega))
      have hassoc : i + 1 + n = i + (n + 1) := by omega
      obtain ⟨tr, s', hrun, hcalls⟩ := @ih (i + 1) fuel
        (fun j hj hlt => hbefore j (by omega) (by omega)) (by rw [hassoc]; exact hend)
        (by omega) (events ++ if (s (i + 1)).status ≠ (s i).status then
          [kanbanEvent "kanban.status_changed" c (s (i + 1)) ∅] else [])
      rw [List.append_assoc, ← statusChanges_succ, hassoc, ← Nat.add_assoc reads] at hrun
      refine ⟨⟨.monotonic, a.monotonic (i + 1)⟩ :: ⟨.sleep p.pollSeconds, ()⟩ ::
        ⟨.readTask taskId, .ok (s (i + 1))⟩ :: tr, s', ?_, ?_⟩
      · unfold pollLoop
        rw [if_neg hstatus, hfailed]
        rw [serve_run_bind serve_monotonic, if_neg hclock, serve_run_bind (serve_sleep _),
          serve_run_bind (serve_readTask (hreads i))]
        by_cases hsame : (s (i + 1)).status = (s i).status
        · rw [if_neg (not_not_intro hsame), List.append_nil] at hrun
          rw [if_neg (not_not_intro hsame), ← hsame, hrun]
          rfl
        · rw [if_pos hsame] at hrun
          rw [if_pos hsame, hrun]
          rfl
      · rw [List.map_cons, List.map_cons, List.map_cons, hcalls, List.replicate_succ]
        rfl

end Loop

end HermesRuntime
