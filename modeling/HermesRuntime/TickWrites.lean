import HermesRuntime.QualityGates
import HermesRuntime.TickLayers

/-!
# What a tick writes

A tick hands an issue to the dispatcher by creating a card, it moves the issue in Linear, and it
finishes the run in the store. All of this comes after what has to come before: the issue has been
read as one to do, the guard has let it through, and the store has granted the claim of the run.

* `own_call` — a call of a claimed execution, with what came before it.
* `created_card` — the cards a tick creates.
* `passed_of_completes` — what comes before a run is completed: the card, the heartbeats, the gates.
* `moved_issue` — the issues a tick moves.
* `finished_run` — the runs it finishes.
-/

namespace HermesRuntime

open Effects Prog Proc

variable {files : Files} {environ : Mapping String} {settings : TickSettings} {fuel : ℕ}

/-! ## Claimed executions -/

/-- The calls before the claimed ones: queries, looks at the board, recoveries and claims. -/
def IsOpening : TickCall → Prop
  | .queryTodo | .board .listTasks | .entropy | .startHeartbeat _ _
  | .post (.recover _) | .post (.claim _) => True
  | _ => False

/-- What a tick has seen of an issue by the time it does anything for it: a query that lists it,
a look at the board that shows no card of it, and a claim that has been granted. -/
structure Claimed (settings : TickSettings) (reply : HttpReply (List LinearNode))
    (tasks : List BoardTask) (done : List TickEvent) (s : LinearIssueSnapshot)
    (c : ExecutionContext) : Prop where
  read : ∃ nodes, todoNodesOf reply = .ok nodes ∧ Guarded nodes tasks s
  status : s.status = "Todo"
  context : IsContextOf s.issue c
  claim : (⟨.post (.claim (c.claimArgs settings.ttlSeconds)), .ok true⟩ : TickEvent) ∈ done

/-- A call of a claimed execution: the call of the pass it is part of, and everything before it. -/
inductive OwnCall (files : Files) (environ : Mapping String) (settings : TickSettings) (fuel : ℕ)
    (pre : List TickEvent) (j : TickCall) : Prop
  | mk {first reply : HttpReply (List LinearNode)} {nodes : List LinearNode}
      {tasks : List BoardTask} {t : TickScope} {before exec : List CallEvent}
      {done part : List TickEvent} {s : LinearIssueSnapshot} {c : ExecutionContext} {i : Call}
      {r : i.Resp} {q : Prog Call Call.Resp (Except Exc ExecutionContext)}
      (hpre : pre = ⟨.queryTodo, first⟩ :: ⟨.queryTodo, reply⟩ :: ⟨.board .listTasks, .ok tasks⟩ ::
        (done ++ part))
      (hfirst : todoNodesOf first = .ok nodes) (hsetUp : SetUp files environ settings nodes t)
      (hclaimed : Claimed settings reply tasks done s c)
      (hdone : Carries (carryOut t fuel) (before ++ exec) done)
      (hexec : Reach (t.runtime.execute true s.issue).run (exec ++ [⟨i, r⟩]) q)
      (hgranted : (⟨.claim c t.runtime.ttlSeconds, .ok ()⟩ : CallEvent) ∈ exec)
      (hown : IsOwn s.identifier c i) (hpart : PartOf t part j i) :
      OwnCall files environ settings fuel pre j

/-- A context with a claim is not one for a human. -/
theorem Claimed.requiresHuman {reply : HttpReply (List LinearNode)} {tasks : List BoardTask}
    {done : List TickEvent} {s : LinearIssueSnapshot} {c : ExecutionContext}
    (h : Claimed settings reply tasks done s c) : requiresHuman c = false := by
  obtain ⟨nodes, -, hguarded⟩ := h.read
  have hselect := select_eligible h.status hguarded.gate
  rw [select_issue] at hselect
  exact hselect.2 c h.context

theorem ttl_of_agentRuntime {ttl heartbeat : Int} {rt : AgentRuntime}
    (h : agentRuntime ttl heartbeat = .ok rt) : rt.ttlSeconds = ttl := by
  unfold agentRuntime at h
  split at h
  · cases h
    rfl
  · cases h

theorem status_of_eligible {s : LinearIssueSnapshot} (h : (select s).action = .eligible) :
    s.status = "Todo" := by
  obtain ⟨fields, hclass⟩ := action_eligible_iff.1 h
  exact status_of_classify hclass

/-- **Everything but the opening calls belongs to a claimed execution.** -/
theorem own_call {pre : List TickEvent} {j : TickCall}
    {k : j.Resp → Prog TickCall TickCall.Resp (Except Exc ℕ)}
    (h : Reach (main files environ settings fuel).run pre (.call j k)) (hopening : ¬ IsOpening j) :
    OwnCall files environ settings fuel pre j := by
  rcases main_call h with ⟨-, rfl⟩ | ⟨first, nodes, t, own, k', rfl, hfirst, hsetUp, hpass⟩
  · exact absurd trivial hopening
  rcases tick_call hpass with ⟨hread⟩ | ⟨rfl⟩ | ⟨i, hdone, rfl, hpart, hs, heligible, hexec⟩
  · rcases guardedRead_call hread with rfl | rfl
    · exact absurd trivial hopening
    · exact absurd trivial hopening
  · exact absurd trivial hopening
  have hpartOf := carryOut_call hpart
  obtain ⟨r⟩ : Nonempty i.Resp := inferInstance
  rcases execution_event (hexec.snoc r) with
    (hrefused | ⟨c, r', -, hclaim⟩) | ⟨c, hcontext, hclaim, hown⟩
  · cases i with
    | entropy =>
        obtain rfl : j = .entropy := hpartOf
        exact absurd trivial hopening
    | claim c ttl =>
        obtain rfl : j = .post (.claim (c.claimArgs ttl)) := hpartOf
        exact absurd trivial hopening
    | lockRejected => exact hpartOf.elim
    | _ => exact hrefused.elim
  · cases hclaim
    obtain rfl : j = .post (.claim (c.claimArgs t.runtime.ttlSeconds)) := hpartOf
    exact absurd trivial hopening
  · obtain ⟨reply, found, tasks, rest, rfl, hrest, hreply, hguarded⟩ := read_carried hdone hs
    have hgranted := claim_carried hrest (List.mem_append_right _ hclaim)
    rw [ttl_of_agentRuntime hsetUp.runtime] at hgranted
    rcases hown with hstart | hown
    · obtain rfl : i = .startHeartbeat c t.runtime.ttlSeconds := hstart
      obtain rfl : j = .startHeartbeat c t.runtime.ttlSeconds := hpartOf
      exact absurd trivial hopening
    · exact ⟨rfl, hfirst, hsetUp, ⟨⟨found, hreply, hguarded⟩, status_of_eligible heligible,
        hcontext, hgranted⟩, hrest, hexec.snoc r, hclaim, hown, hpartOf⟩

/-- Which call of the pass a call of a claimed execution is part of. -/
inductive OwnPart (t : TickScope) (i : String) (c : ExecutionContext) (part : List TickEvent)
    (j : TickCall) : Call → Prop
  | move {status stateId : String} {target : LinearNode}
      (htarget : t.issuesById.lookup i = some target)
      (hstate : t.states.lookup status = some stateId)
      (hj : j = .updateIssue target.id stateId) : OwnPart t i c part j (.moveStatus i status)
  | event {kind : String} {payload : Mapping PyVal} {body : JsonObject}
      (hj : j = .post (.insertEvent ⟨c.runId, c.linearIssueId, c.agent, kind, body⟩)) :
      OwnPart t i c part j (.event c kind payload)
  | start {tr : List BoardEvent} {l : BoardCall}
      {k : l.Resp → Prog BoardCall BoardCall.Resp (Except Exc String)}
      (hpart : part = tr.map boardEvent) (hj : j = .board l)
      (hstart : Reach (start c).run tr (.call l k)) : OwnPart t i c part j (.dispatch c)
  | watch (hj : (∃ id, j = .getTask id ∨ j = .latestRun id) ∨
      (j = .monotonic ∨ ∃ seconds, j = .sleep seconds) ∨ j = .pollOn) :
      OwnPart t i c part j (.dispatch c)
  | join (hj : j = .joinHeartbeat c) : OwnPart t i c part j (.joinHeartbeat c)
  | finish {status : String} {fields : Mapping String}
      (hj : j = .post (.finish c.runId c.linearIssueId status (.object (jsonFields fields)))) :
      OwnPart t i c part j (.finish c status fields)

theorem ownPart_of {t : TickScope} {i : String} {c : ExecutionContext} {part : List TickEvent}
    {j : TickCall} {call : Call} (hown : IsOwn i c call) (hpart : PartOf t part j call) :
    OwnPart t i c part j call := by
  cases call with
  | moveStatus i' status =>
      obtain rfl : i' = i := hown
      obtain ⟨target, stateId, htarget, hstate, hj⟩ := hpart
      exact .move htarget hstate hj
  | event c' kind payload =>
      obtain rfl : c' = c := hown
      obtain ⟨body, hj⟩ := hpart
      exact .event hj
  | dispatch c' =>
      obtain rfl : c' = c := hown
      rcases hpart with ⟨hpre, hj, hstart⟩ | @⟨id, hj⟩ | ⟨hj⟩ | ⟨hj⟩
      · exact .start hpre hj hstart
      · exact .watch (Or.inl ⟨id, hj⟩)
      · exact .watch (Or.inr (Or.inl hj))
      · exact .watch (Or.inr (Or.inr hj))
  | joinHeartbeat c' =>
      obtain rfl : c' = c := hown
      exact .join hpart
  | finish c' status fields =>
      obtain rfl : c' = c := hown
      exact .finish hpart
  | _ => exact hown.elim

/-! ## Cards -/

/-- A start that finds nothing has seen no card, where every task has an id. -/
theorem no_card_of_truthy {tasks : List BoardTask} {i : String}
    (h : truthy ((matchExistingCards tasks [i]).lookup i) = none) (hids : ∀ t ∈ tasks, t.id ≠ "") :
    ∀ t ∈ tasks, ¬ t.CardOf i := by
  intro t ht hcard
  have hkey : i ∈ (matchExistingCards tasks [i]).keys :=
    mem_keys_matchExistingCards.2 ⟨List.mem_singleton_self i, t, ht, hcard⟩
  rw [← AList.mem_keys, ← AList.lookup_isSome] at hkey
  obtain ⟨id, hid⟩ := Option.isSome_iff_exists.1 hkey
  obtain ⟨-, ⟨t', ht', -, rfl⟩, -⟩ := lookup_matchExistingCards_iff.1 hid
  rw [hid, truthy_some (hids t' ht')] at h
  cases h

/-- **The cards of a tick.** Whatever it is answered, a tick that creates a card has read an issue
as one to do whose labels pass the guard, and seen no card of it on the board; it has then been
granted the claim of a run of this issue, has looked at the board once more and again seen no card
of it, and the card it creates is the one for this run. -/
theorem created_card {pre post : List TickEvent} {draft : TaskDraft}
    {r : TickCall.Resp (.board (.createTask draft))}
    {q : Prog TickCall TickCall.Resp (Except Exc ℕ)}
    (h : Reach (main files environ settings fuel).run
      (pre ++ ⟨.board (.createTask draft), r⟩ :: post) q) :
    ∃ first reply nodes tasks between seen s c,
      pre = ⟨.queryTodo, first⟩ :: ⟨.queryTodo, reply⟩ :: ⟨.board .listTasks, .ok tasks⟩ ::
        (between ++ [⟨.board .listTasks, .ok seen⟩]) ∧
      todoNodesOf reply = .ok nodes ∧ s ∈ nodes.map (·.toLinearIssueSnapshot) ∧
      s.status = "Todo" ∧ gateBlockReason s.labels = none ∧
      (∀ task ∈ tasks, ¬ task.CardOf s.identifier) ∧
      IsContextOf s.issue c ∧ requiresHuman c = false ∧
      (⟨.post (.claim (c.claimArgs settings.ttlSeconds)), .ok true⟩ : TickEvent) ∈ between ∧
      ((∀ task ∈ seen, task.id ≠ "") → ∀ task ∈ seen, ¬ task.CardOf s.identifier) ∧
      draft = runtimeDraft c := by
  obtain ⟨k, hpre, -⟩ := h.before
  obtain ⟨rfl, hfirst, hsetUp, hclaimed, hdone, hexec, hgranted, hown, hpart⟩ := own_call hpre id
  rename_i first reply nodes tasks t before exec done part s c i r' q'
  obtain ⟨found, hreply, hguarded⟩ := hclaimed.read
  rcases ownPart_of hown hpart with ⟨-, -, hj⟩ | ⟨hj⟩ | @⟨tr, l, k', rfl, hj, hstart⟩ | ⟨hj⟩ |
    ⟨hj⟩ | ⟨hj⟩
  case start =>
    cases hj
    obtain ⟨rfl, seen, htr, hnone⟩ := start_createTask (hstart.snoc r)
      (List.mem_append_right _ (List.mem_singleton_self _))
    obtain ⟨rfl, -⟩ := List.append_inj' (htr.trans (List.singleton_append.symm)) rfl
    have hid : c.linearIssueId = s.identifier := hclaimed.context.2.1
    refine ⟨first, reply, found, tasks, done, seen, s, c, rfl, hreply, hguarded.node,
      hclaimed.status, hguarded.gate, hguarded.no_card, hclaimed.context, hclaimed.requiresHuman,
      hclaimed.claim, hid ▸ no_card_of_truthy hnone, rfl⟩
  case watch => rcases hj with ⟨_, hj | hj⟩ | (hj | ⟨_, hj⟩) | hj <;> cases hj
  all_goals cases hj

/-! ### A tick with one issue -/

/-- An env file with the key of Linear. -/
def sampleFiles : Files := fun path =>
  if path = sharedEnv then .ok "LINEAR_API_KEY=key\n"
  else .error { typeName := "FileNotFoundError", message := "" }

/-- An environment with the secrets of the store. -/
def sampleEnviron : Mapping String :=
  .mk [⟨"SUPABASE_URL", "https://db"⟩, ⟨"SUPABASE_SERVICE_ROLE_KEY", "secret"⟩]

/-- Linear lists one issue, the board is empty, and the card of the issue is done at once. -/
def sampleAnswers : (i : TickCall) → Option i.Resp
  | .queryTodo => some (.document (some [{ plainSnapshot with id := "id-1" }]))
  | .updateIssue _ _ => some (.document (some true))
  | .post _ => some (.ok true)
  | .entropy => some (0, 0)
  | .startHeartbeat _ _ => some ()
  | .joinHeartbeat _ => some []
  | .board .listTasks => some (.ok [])
  | .board (.createTask _) => some (.ok "t_1")
  | .getTask _ => some (.ok (some { status := "done" }))
  | .latestRun _ => some (.ok none)
  | .monotonic => some (0 : ℚ)
  | .sleep _ => some ()
  | .pollOn => none

/-- The events of the tick that `sampleAnswers` answers. -/
def sampleTick : List TickEvent :=
  (advance sampleAnswers (main sampleFiles sampleEnviron {} 1).run).1

/-- The call creates a card. -/
def TickCall.createsCard : TickCall → Bool
  | .board (.createTask _) => true
  | _ => false

theorem created_card_sample : ∃ pre post draft r, ∃ s : LinearIssueSnapshot, ∃ c,
    sampleTick =
      pre ++ (⟨.board (.createTask draft), r⟩ : TickEvent) :: post ∧ IsContextOf s.issue c ∧
    (⟨.post (.claim (c.claimArgs 600)), .ok true⟩ : TickEvent) ∈ pre ∧ draft = runtimeDraft c := by
  obtain ⟨pre, i, r, post, q, hi, htick, h⟩ :=
    exists_advance (f := sampleAnswers) (p := (main sampleFiles sampleEnviron {} 1).run)
      (P := TickCall.createsCard) (by decide)
  cases i with
  | board i =>
      cases i with
      | createTask draft =>
          obtain ⟨first, reply, nodes, tasks, between, seen, s, c, rfl, -, -, -, -, -, hcontext, -,
            hclaim, -, hdraft⟩ := created_card h
          exact ⟨_, post, draft, r, s, c, htick, hcontext, by simp [hclaim], hdraft⟩
      | listTasks => cases hi
  | _ => cases hi

/-! ## The way to a completed run -/

/-- What a tick has seen when a run gets past the gates: the card it was started on, a heartbeat
thread that none of its requests has failed, and results the gates let through. -/
structure PassedGates (c : ExecutionContext) (result : ExecutionResult) (pre : List TickEvent) :
    Prop where
  card : ∃ taskId task run, BackedBy c result taskId task run pre
  heartbeats : ∃ answers : List (Except Failure Bool),
    (⟨.joinHeartbeat c, answers⟩ : TickEvent) ∈ pre ∧
    ∀ answer ∈ answers, answer = .ok true
  gates : c.agent ∈ gatedAgents →
    result.testsStatus = some "passed" ∧ result.reviewStatus = some "approved"

theorem PassedGates.mono {c : ExecutionContext} {result : ExecutionResult}
    {pre pre' : List TickEvent} (h : PassedGates c result pre) (hpre : pre <:+: pre') :
    PassedGates c result pre' := by
  obtain ⟨taskId, task, run, hcard⟩ := h.card
  obtain ⟨answers, hmem, hanswers⟩ := h.heartbeats
  exact ⟨⟨taskId, task, run, hcard.mono hpre⟩, ⟨answers, hpre.mem hmem, hanswers⟩, h.gates⟩

/-- The heartbeats an execution has joined are those of the thread the tick has joined. -/
theorem heartbeats_carried {t : TickScope} {tr : List CallEvent} {low : List TickEvent}
    (hc : Carries (carryOut t fuel) tr low) {c : ExecutionContext}
    {outcomes : List (Except Exc Bool)} (hmem : (⟨.joinHeartbeat c, outcomes⟩ : CallEvent) ∈ tr)
    (hclean : heartbeatErrors outcomes = []) :
    ∃ answers : List (Except Failure Bool), (⟨.joinHeartbeat c, answers⟩ : TickEvent) ∈ low ∧
      ∀ answer ∈ answers, answer = .ok true := by
  obtain ⟨before, own, after, rfl, hown⟩ := hc.own hmem
  obtain ⟨answers, rest, rfl, hret⟩ := returns_call.1 hown
  obtain ⟨rfl, rfl⟩ := returns_ret.1 hret
  refine ⟨answers, by simp, fun answer hanswer => ?_⟩
  have hok := heartbeatErrors_eq_nil_iff.1 hclean _ (List.mem_map_of_mem hanswer)
  rcases answer with f | b
  · cases hok
  · cases hok
    rfl

/-- **A run on the way to be completed has passed**, by what the tick has seen. -/
theorem passed_of_completes {t : TickScope} {before exec : List CallEvent} {done : List TickEvent}
    {issue : Issue} {c : ExecutionContext} {i : Call} {r : i.Resp}
    {q : Prog Call Call.Resp (Except Exc ExecutionContext)}
    (hdone : Carries (carryOut t fuel) (before ++ exec) done)
    (hexec : Reach (t.runtime.execute true issue).run (exec ++ [⟨i, r⟩]) q)
    (hgranted : (⟨.claim c t.runtime.ttlSeconds, .ok ()⟩ : CallEvent) ∈ exec)
    (hcompletes : Completes ⟨i, r⟩) : ∃ result, PassedGates c result done ∧
      (i = .moveStatus issue.identifier "In Review" ∨ i = .finish c "completed" result.fields) := by
  obtain ⟨c', drawn, work, tail, result, htr, hdisp, hown, hshape⟩ :=
    gates_of_completes hexec (List.mem_append_right _ (List.mem_singleton_self _)) hcompletes
  have hclaimed : (⟨.claim c' t.runtime.ttlSeconds, .ok ()⟩ : CallEvent) ∈ exec ++ [⟨i, r⟩] := by
    rw [htr]
    simp [claimSteps]
  obtain rfl := claim_unique hexec hclaimed (List.mem_append_left _ hgranted)
  obtain ⟨outcomes, posts, rfl, -, hclean, hgates⟩ := dispatchIssue_ok hdisp
  -- What is done before the event is all of the work, the event itself completes.
  have hbefore : ∀ ev : CallEvent, ¬ Completes ev → ev ∈ exec ++ [⟨i, r⟩] →
      ev ∈ before ++ exec := by
    intro ev hev hmem
    rcases List.mem_append.1 hmem with hmem | hmem
    · exact List.mem_append_right _ hmem
    · rw [List.mem_singleton.1 hmem] at hev
      exact absurd hcompletes hev
  have hdispatched := hbefore ⟨.dispatch c, .ok result⟩ id (by rw [htr]; simp)
  have hjoined := hbefore ⟨.joinHeartbeat c, outcomes⟩ id (by rw [htr]; simp)
  obtain ⟨low₁, own, low₂, heq, hreturns⟩ := hdone.own hdispatched
  obtain ⟨taskId, task, run, hbacked⟩ := returns_dispatchTask hreturns
  refine ⟨result, ⟨⟨taskId, task, run, hbacked.mono ⟨low₁, low₂, heq.symm⟩⟩,
    heartbeats_carried hdone hjoined hclean, gatesPassed_iff.1 hgates⟩, ?_⟩
  rcases hshape with ⟨r', heq⟩ | ⟨r', heq⟩
  · exact Or.inl (congrArg Sigma.fst heq)
  · exact Or.inr (congrArg Sigma.fst heq)

/-! ## Moves -/

theorem mem_of_lookup_foldl {nodes : List LinearNode} {m : Mapping LinearNode} {i : String}
    {n : LinearNode}
    (h : (nodes.foldl (fun found n => found.set n.identifier n) m).lookup i = some n) :
    (n ∈ nodes ∧ n.identifier = i) ∨ m.lookup i = some n := by
  induction nodes generalizing m with
  | nil => exact Or.inr h
  | cons n' nodes ih =>
      rcases ih h with ⟨hn, hi⟩ | hset
      · exact Or.inl ⟨List.mem_cons_of_mem _ hn, hi⟩
      · rw [Mapping.lookup_set] at hset
        split at hset
        · rename_i hi
          cases hset
          exact Or.inl ⟨List.mem_cons_self, hi.symm⟩
        · exact Or.inr hset

/-- What `issues_by_id` has under an identifier is one of the nodes with it. -/
theorem mem_of_lookup_issuesById {nodes : List LinearNode} {i : String} {n : LinearNode}
    (h : (issuesById nodes).lookup i = some n) : n ∈ nodes ∧ n.identifier = i := by
  rcases mem_of_lookup_foldl h with hn | hempty
  · exact hn
  · cases hempty

/-- **The moves of a tick.** Whatever it is answered, a tick that moves an issue in Linear has read
it as one to do, has seen no card of it and has been granted the claim of a run of it. It moves a
node of that identifier which the first query has listed, to the state of one of the three statuses
of a run; and to the state of `In Review` only for a run that has passed. -/
theorem moved_issue {pre post : List TickEvent} {issueId stateId : String}
    {r : TickCall.Resp (.updateIssue issueId stateId)}
    {q : Prog TickCall TickCall.Resp (Except Exc ℕ)}
    (h : Reach (main files environ settings fuel).run
      (pre ++ ⟨.updateIssue issueId stateId, r⟩ :: post) q) :
    ∃ first reply nodes tasks done part s c target status,
      pre = ⟨.queryTodo, first⟩ :: ⟨.queryTodo, reply⟩ :: ⟨.board .listTasks, .ok tasks⟩ ::
        (done ++ part) ∧
      todoNodesOf first = .ok nodes ∧ Claimed settings reply tasks done s c ∧
      target ∈ nodes ∧ target.identifier = s.identifier ∧ target.id = issueId ∧
      status ∈ ["In Progress", "In Review", "Blocked"] ∧
      (linearStatusStates settings.blockedState).lookup status = some stateId ∧
      (status = "In Review" → ∃ result, PassedGates c result done) := by
  obtain ⟨k, hpre, -⟩ := h.before
  obtain ⟨rfl, hfirst, hsetUp, hclaimed, hdone, hexec, hgranted, hown, hpart⟩ := own_call hpre id
  rename_i first reply nodes tasks t before exec done part s c i r' q'
  rcases ownPart_of hown hpart with @⟨status, state, target, htarget, hstate, hj⟩ | ⟨hj⟩ |
    @⟨_, _, _, -, hj, -⟩ | ⟨hj⟩ | ⟨hj⟩ | ⟨hj⟩
  case move =>
    cases hj
    rw [hsetUp.byId] at htarget
    rw [hsetUp.states] at hstate
    obtain ⟨hmem, hidentifier⟩ := mem_of_lookup_issuesById htarget
    have hturn : IsTurn s.identifier (.moveStatus s.identifier status) :=
      (execute_only _ _ _).mem hexec _ (List.mem_append_right _ (List.mem_singleton_self _))
    refine ⟨first, reply, nodes, tasks, done, part, s, c, target, status, rfl, hfirst, hclaimed,
      hmem, hidentifier, rfl, hturn.2, hstate, ?_⟩
    rintro rfl
    obtain ⟨result, hpassed, -⟩ := passed_of_completes hdone hexec hgranted rfl
    exact ⟨result, hpassed⟩
  case watch => rcases hj with ⟨_, hj | hj⟩ | (hj | ⟨_, hj⟩) | hj <;> cases hj
  all_goals cases hj

/-- The call moves an issue in Linear. -/
def TickCall.movesIssue : TickCall → Bool
  | .updateIssue _ _ => true
  | _ => false

theorem moved_issue_sample : ∃ pre post issueId stateId r status, sampleTick =
      pre ++ (⟨.updateIssue issueId stateId, r⟩ : TickEvent) :: post ∧
    (linearStatusStates none).lookup status = some stateId := by
  obtain ⟨pre, i, r, post, q, hi, htick, h⟩ :=
    exists_advance (f := sampleAnswers) (p := (main sampleFiles sampleEnviron {} 1).run)
      (P := TickCall.movesIssue) (by decide)
  cases i with
  | updateIssue issueId stateId =>
      obtain ⟨first, reply, nodes, tasks, done, part, s, c, target, status, -, -, -, -, -, -, -,
        hstate, -⟩ := moved_issue h
      exact ⟨pre, post, issueId, stateId, r, status, htick, hstate⟩
  | _ => cases hi

/-! ## Finishes -/

/-- What comes before a tick asks to finish a run, and with which status and fields it does. -/
theorem finish_call {pre : List TickEvent} {runId linearId status : String} {body : JsonArg}
    {k : TickCall.Resp (.post (.finish runId linearId status body)) →
      Prog TickCall TickCall.Resp (Except Exc ℕ)}
    (h : Reach (main files environ settings fuel).run pre
      (.call (.post (.finish runId linearId status body)) k)) :
    ∃ first reply tasks done part s c,
      pre = ⟨.queryTodo, first⟩ :: ⟨.queryTodo, reply⟩ :: ⟨.board .listTasks, .ok tasks⟩ ::
        (done ++ part) ∧
      Claimed settings reply tasks done s c ∧ c.runId = runId ∧ c.linearIssueId = linearId ∧
      ((status = "completed" ∧ ∃ result, PassedGates c result done ∧
          body = .object (jsonFields result.fields)) ∨
        (status = "failed" ∨ status = "blocked") ∧
          ∃ name, body = .object (jsonFields (errorFields name))) := by
  obtain ⟨rfl, -, -, hclaimed, hdone, hexec, hgranted, hown, hpart⟩ := own_call h id
  rename_i first reply nodes tasks t before exec done part s c i r q
  rcases ownPart_of hown hpart with ⟨-, -, hj⟩ | ⟨hj⟩ | @⟨_, _, _, -, hj, -⟩ | ⟨hj⟩ | ⟨hj⟩ |
    ⟨hj⟩
  case finish =>
    cases hj
    refine ⟨first, reply, tasks, done, part, s, c, rfl, hclaimed, rfl, rfl, ?_⟩
    rcases finish_of_execute hexec
      (List.mem_append_right _ (List.mem_singleton_self _)) with rfl | ⟨hstatus, name, rfl⟩
    · obtain ⟨result, hpassed, hmove | hfinish⟩ := passed_of_completes hdone hexec hgranted rfl
      · cases hmove
      · cases hfinish
        exact Or.inl ⟨rfl, result, hpassed, rfl⟩
    · exact Or.inr ⟨hstatus, name, rfl⟩
  case watch => rcases hj with ⟨_, hj | hj⟩ | (hj | ⟨_, hj⟩) | hj <;> cases hj
  all_goals cases hj

/-- **The finishes of a tick.** Whatever it is answered, a tick that finishes a run has been granted
its claim before, for an issue it has read as one to do. It finishes it as completed, with the
fields of a result that has passed, or as failed or blocked, with the name of an error. -/
theorem finished_run {pre post : List TickEvent} {runId linearId status : String} {body : JsonArg}
    {r : TickCall.Resp (.post (.finish runId linearId status body))}
    {q : Prog TickCall TickCall.Resp (Except Exc ℕ)}
    (h : Reach (main files environ settings fuel).run
      (pre ++ ⟨.post (.finish runId linearId status body), r⟩ :: post) q) :
    ∃ first reply tasks done part s c,
      pre = ⟨.queryTodo, first⟩ :: ⟨.queryTodo, reply⟩ :: ⟨.board .listTasks, .ok tasks⟩ ::
        (done ++ part) ∧
      Claimed settings reply tasks done s c ∧ c.runId = runId ∧ c.linearIssueId = linearId ∧
      ((status = "completed" ∧ ∃ result, PassedGates c result done ∧
          body = .object (jsonFields result.fields)) ∨
        (status = "failed" ∨ status = "blocked") ∧
          ∃ name, body = .object (jsonFields (errorFields name))) := by
  obtain ⟨k, hpre, -⟩ := h.before
  exact finish_call hpre

/-- The call finishes a run. -/
def TickCall.finishesRun : TickCall → Bool
  | .post (.finish _ _ _ _) => true
  | _ => false

theorem finished_run_sample : ∃ pre post runId linearId status body r,
    ∃ c : ExecutionContext, sampleTick =
      pre ++ (⟨.post (.finish runId linearId status body), r⟩ : TickEvent) :: post ∧
    c.runId = runId ∧ (⟨.post (.claim (c.claimArgs 600)), .ok true⟩ : TickEvent) ∈ pre := by
  obtain ⟨pre, i, r, post, q, hi, htick, h⟩ :=
    exists_advance (f := sampleAnswers) (p := (main sampleFiles sampleEnviron {} 1).run)
      (P := TickCall.finishesRun) (by decide)
  cases i with
  | post op =>
      cases op with
      | finish runId linearId status body =>
          obtain ⟨first, reply, tasks, done, part, s, c, rfl, hclaimed, hrun, -, -⟩ :=
            finished_run h
          refine ⟨_, post, runId, linearId, status, body, r, c, htick, hrun, ?_⟩
          have hclaim : (⟨.post (.claim (c.claimArgs 600)), .ok true⟩ : TickEvent) ∈ done :=
            hclaimed.claim
          simp [hclaim]
      | _ => cases hi
  | _ => cases hi

end HermesRuntime
