import HermesRuntime.World

/-!
# Scripted interleavings

A script fixes everything the system leaves open: every request is answered, and the callbacks
of a program do what the script says. Followed along a schedule it gives a concrete
interleaving, which `decide` can run.
-/

namespace HermesRuntime

open Effects

/-- Every request is answered. -/
def reliable : Net := fun _ d => d = .answered

/-- What the surroundings of each program answer. -/
structure Script (π : Type) where
  random : π → Fin (2 ^ 80)
  moveStatus : π → String → String → Except Exc Unit
  dispatch : π → ExecutionContext → Except Exc ExecutionResult

variable {π : Type} [DecidableEq π]

/-- The world after a move that was answered `r`: one that raised moved nothing. -/
def World.moved (w : World π) (i status : String) (r : Except Exc Unit) : World π :=
  match r with
  | .ok () => { w with linear := w.linear.setStatus i status }
  | .error _ => w

namespace Script

/-- The answer to a call, and the world after it. -/
def answer (s : Script π) (p : π) : (call : Call) → World π → call.Resp × World π
  | .entropy, w => ((w.now / 1000, s.random p), w)
  | .claim c ttl, w =>
      let (r, db) := SupabaseStore.claim .answered w.now c ttl w.db
      (r, w.withDb db)
  | .lockRejected _ _, w => (.ok (), w)
  | .startHeartbeat c ttl, w => ((), w.withPulse p ⟨c, ttl, [], false⟩)
  | .joinHeartbeat _, w => (w.answers p, w.joined p)
  | .moveStatus i status, w => (s.moveStatus p i status, w.moved i status (s.moveStatus p i status))
  | .event c kind payload, w =>
      let (r, db) := SupabaseStore.event .answered w.now c kind payload w.db
      (r, w.withDb db)
  | .dispatch c, w => (s.dispatch p c, w)
  | .finish c status fields, w =>
      let (r, db) := SupabaseStore.finish .answered w.now c status fields w.db
      (r, w.withDb db)
  | .recover i, w =>
      let (r, db) := SupabaseStore.recover .answered w.now i w.db
      (r, w.withDb db)
  | .readIssues, w => (.ok w.linear.issues, w)
  | .recordBlocked _ _, w => (.ok (), w)

theorem answer_sound (s : Script π) (p : π) (call : Call) (w : World π) :
    Answers reliable p ⟨call, (s.answer p call w).1⟩ w (s.answer p call w).2 := by
  cases call with
  | entropy | lockRejected | dispatch | recordBlocked | startHeartbeat => exact rfl
  | joinHeartbeat => exact ⟨rfl, rfl⟩
  | readIssues => exact ⟨rfl, .refl _⟩
  | claim | event | finish | recover => exact ⟨.answered, rfl, rfl, rfl⟩
  | moveStatus i status =>
      show _ = _ ∨ _ ∧ _
      simp only [answer]
      cases s.moveStatus p i status with
      | ok => exact Or.inl rfl
      | error => exact Or.inr ⟨rfl, nofun⟩

/-- A step of the surroundings; heartbeats are answered. -/
def surround : EnvStep π → World π → Option (World π)
  | .tick micros, w => some { w with now := w.now + micros }
  | .beat p, w =>
      match w.pulses p with
      | none => none
      | some pulse =>
          if pulse.alive then
            let (r, db) :=
              SupabaseStore.heartbeat .answered w.now pulse.context pulse.ttlSeconds w.db
            some ((w.withDb db).withPulse p { pulse with answers := pulse.answers ++ [r] })
          else none
  | .store op, w => some (w.withDb (op.apply w.now w.db))
  | .edit i status, w => some { w with linear := w.linear.setStatus i status }

theorem surround_sound {x : EnvStep π} {w w' : World π} (h : surround x w = some w') :
    Surrounds x w w' := by
  cases x with
  | tick micros => exact (Option.some.inj h).symm
  | store op => exact (Option.some.inj h).symm
  | edit i status => exact (Option.some.inj h).symm
  | beat p =>
      simp only [surround] at h
      cases hpulse : w.pulses p with
      | none => rw [hpulse] at h; cases h
      | some pulse =>
          rw [hpulse] at h
          by_cases halive : pulse.alive = true
          · simp only [halive, if_true] at h
            exact ⟨pulse, hpulse, halive, .answered, _, _, rfl, (Option.some.inj h).symm⟩
          · simp only [halive] at h
            cases h

/-- The script as a driver of the system. -/
def driver (s : Script π) : Driver (system (π := π) reliable) where
  answer := s.answer
  answer_sound := s.answer_sound
  surround := surround
  surround_sound := surround_sound

/-- Everything goes through, and the dispatcher returns nothing; the programs draw different
ids. -/
def calm : Script Bool where
  random := fun p => if p then 1 else 0
  moveStatus := fun _ _ _ => .ok ()
  dispatch := fun _ _ => .ok {}

end Script

/-- Empty tables, whose time columns default to the current time. -/
def World.start (linear : Backlog) : World π := ⟨.empty ⟨some, some⟩, 0, linear, fun _ => none⟩

/-- An issue in Linear that can be executed. -/
def todoSnapshot : LinearIssueSnapshot :=
  ⟨"LOL-1", "Todo", ["agent:qa"], List.nodup_singleton "agent:qa"⟩

theorem nodup_todoSnapshot : ([todoSnapshot].map (·.identifier)).Nodup := List.nodup_singleton _

/-- An orchestrator with every callback. -/
def sampleOrchestrator : RuntimeOrchestrator where
  runtime := .ofStore
  hasMove := true
  pollerRecords := true
  records := true

/-- The run of a claim that goes through. -/
def claimedRun : CallEvent → Option String
  | ⟨.claim c _, .ok ()⟩ => some c.runId
  | _ => none

theorem exists_claim {tr : List CallEvent} {id : String} (h : id ∈ tr.filterMap claimedRun) :
    ∃ c ttl, (⟨.claim c ttl, .ok ()⟩ : CallEvent) ∈ tr ∧ c.runId = id := by
  obtain ⟨⟨call, r⟩, hmem, hrun⟩ := List.mem_filterMap.1 h
  cases call
  case claim c ttl =>
    rcases r with e | u
    · cases hrun
    · cases hrun
      exact ⟨c, ttl, hmem, rfl⟩
  all_goals cases hrun

end HermesRuntime
