import HermesRuntime.Runtime

/-!
# The guard of a tick (`poller_dispatch_guard.py`)

Before a tick dispatches anything, an issue that already has a card on the board is skipped, so is
one whose labels call for a human or leave a gate open, and of the others only as many go through
as the bound allows.
-/

namespace HermesRuntime

/-! ## Policy -/

/-- `KNOWN_AGENTS` -/
def knownAgents : List String := [
  "agent:orchestrator", "agent:backend", "agent:frontend", "agent:devops", "agent:qa",
  "agent:review", "agent:github"]

/-- `_KNOWN_RISK` -/
def knownRisk : List String := ["low", "medium", "high", "critical"]

/-- `_KNOWN_EXECUTION` -/
def knownExecution : List String := ["auto", "human", "blocked"]

/-- `_KNOWN_ENV` -/
def knownEnv : List String := ["local", "preview", "staging", "production"]

/-- The reasons of `gate_block_reason`. -/
inductive GateReason where
  | unknownAgents (labels : List String)
  | agentCount
  | missing (pre : String)
  | ambiguous (pre : String)
  | unknown (pre value : String)
  | needsHuman (pre value : String)
  deriving DecidableEq, Repr

/-- The text of a reason; `repr` writes a list as Python does. -/
def GateReason.text (repr : List String → String) : GateReason → String
  | .unknownAgents labels => "gate invalido: rotulo(s) " ++ repr labels
  | .agentCount => "gate ausente: exatamente um rotulo agent:* obrigatorio"
  | .missing pre => "gate ausente: rotulo " ++ pre ++ "* obrigatorio"
  | .ambiguous pre => "gate ambiguo: multiplos rotulos " ++ pre ++ "*"
  | .unknown pre value => "gate invalido: " ++ pre ++ value
  | .needsHuman pre value =>
      if pre = "risk:" then "risco " ++ value ++ " exige humano"
      else pre ++ value ++ " exige humano"

/-- `_one_label`: the value of the one label with this prefix, or why there is none. -/
def oneLabel (labels : List String) (pre : String) : Except GateReason String :=
  match (labels.filter (startsWith · pre)).map (removePrefix · pre) with
  | [] => .error (.missing pre)
  | [value] => .ok value
  | _ => .error (.ambiguous pre)

/-- The checks of one gate label: it is there once, its value is known and needs no human. -/
def gate (labels : List String) (pre : String) (known : List String) (human : String → Bool) :
    Option GateReason :=
  match oneLabel labels pre with
  | .error reason => some reason
  | .ok value =>
      if value ∉ known then some (.unknown pre value)
      else if human value then some (.needsHuman pre value)
      else none

/-- `gate_block_reason` -/
def gateBlockReason (labels : List String) : Option GateReason :=
  let labels := labels.dedup
  let agents := labels.filter (startsWith · "agent:")
  let unknownAgents := agents.filter (· ∉ knownAgents)
  if unknownAgents ≠ [] then some (.unknownAgents (sortedStrings unknownAgents))
  else if agents.length ≠ 1 then some .agentCount
  else
    (gate labels "risk:" knownRisk (· ∈ ["high", "critical"])).or <|
      (gate labels "execution:" knownExecution (· ≠ "auto")).or <|
        gate labels "env:" knownEnv (· = "production")

/-! ## Existing cards -/

/-- `[0-9A-Za-z-]` -/
def isIdentifierChar (c : Char) : Bool := c.isAlphanum || c = '-'

/-- `_identifier_pattern(identifier).search(text)`: the identifier, neither after nor before a
character of one. `previous` is the character before the text left. -/
def searchIdentifier (identifier : List Char) (previous : Option Char) (text : List Char) : Bool :=
  (identifier.isPrefixOf text && !previous.any isIdentifierChar &&
      !(text.drop identifier.length).head?.any isIdentifierChar) ||
    match text with
    | [] => false
    | c :: rest => searchIdentifier identifier (some c) rest

/-- What the guard reads of a task on the board, and the key it was created with. -/
structure BoardTask where
  id : String
  status : Option String := none
  title : Option String := none
  body : Option String := none
  idempotencyKey : Option String := none
  deriving DecidableEq

/-- The title or the body of the task has the identifier as a token. -/
def BoardTask.mentions (task : BoardTask) (identifier : String) : Bool :=
  searchIdentifier identifier.toList none (task.title.getD "").toList ||
    searchIdentifier identifier.toList none (task.body.getD "").toList

/-- The inner loop of `match_existing_cards`: the identifiers a task is found for. -/
def matchCard (task : BoardTask) (wanted : List String) (found : Mapping String) :
    Mapping String :=
  wanted.foldl (fun found identifier =>
    if identifier ∈ found.keys then found
    else if task.mentions identifier then found.set identifier task.id
    else found) found

/-- `match_existing_cards` -/
def matchExistingCards (tasks : List BoardTask) (identifiers : List String) : Mapping String :=
  let wanted := identifiers.eraseDups
  (tasks.insertionSort fun t t' => t.id ≤ t'.id).foldl (fun found task =>
    if task.status = some "archived" then found else matchCard task wanted found) ∅

/-! ## Selection -/

/-- Why a candidate is skipped. -/
inductive SkipReason where
  /-- card existente no board -/
  | existingCard
  | gate (reason : GateReason)
  /-- bound do tick (max=…) -/
  | bound (maxDispatch : Int)
  deriving DecidableEq, Repr

/-- `Skip` -/
structure Skip where
  identifier : String
  reason : SkipReason
  deriving DecidableEq

/-- `GuardOutcome` -/
structure GuardOutcome where
  dispatched : List LinearIssueSnapshot
  skipped : List Skip
  deriving DecidableEq

/-- The loop of `select_with_guard`: what passes dedup and policy, and what does not. -/
def applyGuards (existing : List String) :
    List LinearIssueSnapshot → List LinearIssueSnapshot × List Skip
  | [] => ([], [])
  | snapshot :: rest =>
      let (dispatched, skipped) := applyGuards existing rest
      if snapshot.identifier ∈ existing then
        (dispatched, ⟨snapshot.identifier, .existingCard⟩ :: skipped)
      else
        match gateBlockReason snapshot.labels with
        | some reason => (dispatched, ⟨snapshot.identifier, .gate reason⟩ :: skipped)
        | none => (snapshot :: dispatched, skipped)

/-- `select_with_guard` -/
def selectWithGuard (snapshots : List LinearIssueSnapshot) (existingIds : List String)
    (maxDispatch : Int) : Except Exc GuardOutcome :=
  if maxDispatch < 1 then .error (.valueError "max_dispatch must be >= 1")
  else
    let (dispatched, skipped) := applyGuards existingIds snapshots
    .ok {
      dispatched := dispatched.take maxDispatch.toNat
      skipped := skipped ++
        (dispatched.drop maxDispatch.toNat).map fun s => ⟨s.identifier, .bound maxDispatch⟩ }

end HermesRuntime
