import HermesRuntime.Lib.Interleave
import HermesRuntime.Orchestrator
import HermesRuntime.Supabase

/-!
# The system

Workers and orchestrators run side by side over one database, one clock and one Linear backlog.
A step answers the call one of them waits at, lets the heartbeat thread of one of them beat, or
is something the surroundings do: time passes, another party calls the store, somebody moves an
issue in Linear.

What the network does with each request is open; `Net` says which fates a request can have, so
that a theorem can ask for a reliable finish, say, and leave everything else to chance.
-/

namespace HermesRuntime

open Effects

/-! ## Linear -/

/-- The issues in Linear, one for each identifier. -/
structure Backlog where
  issues : List LinearIssueSnapshot
  nodup : (issues.map (·.identifier)).Nodup

/-- Move an issue to a status. -/
def LinearIssueSnapshot.setStatus (i status : String) (s : LinearIssueSnapshot) :
    LinearIssueSnapshot :=
  if s.identifier = i then { s with status } else s

@[simp] theorem identifier_setStatus (i status : String) (s : LinearIssueSnapshot) :
    (s.setStatus i status).identifier = s.identifier := by
  unfold LinearIssueSnapshot.setStatus
  split <;> rfl

/-- `move_status`, as Linear carries it out. -/
def Backlog.setStatus (b : Backlog) (i status : String) : Backlog where
  issues := b.issues.map (·.setStatus i status)
  nodup := by
    rw [List.map_map]
    simpa [Function.comp_def] using b.nodup

/-! ## The world -/

/-- A heartbeat thread: what it beats for, what its heartbeats were answered, and whether it has
been stopped. -/
structure Pulse where
  context : ExecutionContext
  ttlSeconds : Int
  answers : List (Except Exc Bool)
  stopped : Bool

/-- `pulse` goes on: it has not been stopped and no heartbeat has failed. -/
def Pulse.alive (pulse : Pulse) : Bool := !pulse.stopped && (heartbeatErrors pulse.answers).isEmpty

/-- What everyone shares, and the heartbeat thread of each program. -/
structure World (π : Type) where
  db : Db
  now : Timestamp
  linear : Backlog
  pulses : π → Option Pulse

/-- What the surroundings do. -/
inductive EnvStep (π : Type) where
  /-- Time passes. -/
  | tick (micros : Nat)
  /-- The heartbeat thread of `p` beats. -/
  | beat (p : π)
  /-- Another party calls the store. -/
  | store (op : StoreOp)
  /-- Somebody moves an issue. -/
  | edit (issueId status : String)

/-- Which fates the request of a call can have. -/
abbrev Net : Type := Call → Delivery → Prop

variable {π : Type} [DecidableEq π]

/-- The world after the store turned to `db`. -/
def World.withDb (w : World π) (db : Db) : World π := { w with db }

/-- The world after the heartbeat thread of `p` became `pulse`. -/
def World.withPulse (w : World π) (p : π) (pulse : Pulse) : World π :=
  { w with pulses := Function.update w.pulses p (some pulse) }

/-- The answers the heartbeat thread of `p` has got. -/
def World.answers (w : World π) (p : π) : List (Except Exc Bool) :=
  match w.pulses p with
  | some pulse => pulse.answers
  | none => []

/-- The world after the heartbeat thread of `p` was stopped. -/
def World.joined (w : World π) (p : π) : World π :=
  match w.pulses p with
  | some pulse => w.withPulse p { pulse with stopped := true }
  | none => w

/-- The answer to a call of `p`, and the world after it. -/
def Answers (net : Net) (p : π) : CallEvent → World π → World π → Prop
  | ⟨.entropy, _⟩, w, w' => w' = w
  | ⟨.claim c ttl, r⟩, w, w' =>
      ∃ d, net (.claim c ttl) d ∧ SupabaseStore.claim d w.now c ttl w.db = (r, w'.db) ∧
        w' = w.withDb w'.db
  | ⟨.lockRejected _ _, _⟩, w, w' => w' = w
  | ⟨.startHeartbeat c ttl, _⟩, w, w' => w' = w.withPulse p ⟨c, ttl, [], false⟩
  | ⟨.joinHeartbeat _, r⟩, w, w' => r = w.answers p ∧ w' = w.joined p
  | ⟨.moveStatus i s, r⟩, w, w' =>
      w' = { w with linear := w.linear.setStatus i s } ∨ (w' = w ∧ r ≠ .ok ())
  | ⟨.event c kind payload, r⟩, w, w' =>
      ∃ d, net (.event c kind payload) d ∧
        SupabaseStore.event d w.now c kind payload w.db = (r, w'.db) ∧ w' = w.withDb w'.db
  | ⟨.dispatch _, _⟩, w, w' => w' = w
  | ⟨.finish c s fields, r⟩, w, w' =>
      ∃ d, net (.finish c s fields) d ∧
        SupabaseStore.finish d w.now c s fields w.db = (r, w'.db) ∧ w' = w.withDb w'.db
  | ⟨.recover i, r⟩, w, w' =>
      ∃ d, net (.recover i) d ∧ SupabaseStore.recover d w.now i w.db = (r, w'.db) ∧
        w' = w.withDb w'.db
  | ⟨.readIssues, r⟩, w, w' =>
      w' = w ∧ match r with
        | .ok snapshots => snapshots.Perm w.linear.issues
        | .error _ => True
  | ⟨.recordBlocked _ _, _⟩, w, w' => w' = w

/-- What the surroundings do to the world. -/
def Surrounds : EnvStep π → World π → World π → Prop
  | .tick micros, w, w' => w' = { w with now := w.now + micros }
  | .beat p, w, w' =>
      ∃ pulse, w.pulses p = some pulse ∧ pulse.alive = true ∧
        ∃ d r db, SupabaseStore.heartbeat d w.now pulse.context pulse.ttlSeconds w.db = (r, db) ∧
          w' = (w.withDb db).withPulse p { pulse with answers := pulse.answers ++ [r] }
  | .store op, w, w' => w' = w.withDb (op.apply w.now w.db)
  | .edit i s, w, w' => w' = { w with linear := w.linear.setStatus i s }

/-- The system over a network. -/
def system (net : Net) : Semantics π Call Call.Resp (EnvStep π) (World π) where
  answer := Answers net
  surround := Surrounds

end HermesRuntime
