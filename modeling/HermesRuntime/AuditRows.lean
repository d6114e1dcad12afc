import HermesRuntime.PayloadsProof
import HermesRuntime.RuntimeFunctionsProof
import HermesRuntime.Supabase
import Mathlib.Tactic.IntervalCases

/-!
# The rows of the audit trail

`agent_events` is written in two places: `SupabaseStore.event` posts what the validator let
through, and the runtime functions build their payloads themselves. Here each kind of row is
held against the validator, its payload column read back into Python.

* `event_row_accepted` — a posted row is accepted.
* `acquired_accepted`, `started_accepted`, `released_accepted`, `expired_accepted` — so are
  these rows of the runtime functions.
* `rejected_accepted_iff`, `recovered_accepted_iff`, `completed_accepted_iff`,
  `failed_accepted_iff`, `blocked_accepted_iff` — these are accepted for clean arguments only.
-/

namespace HermesRuntime

/-! ## Reading a row back -/

/-- A payload column as Python reads it back. -/
def JsonObject.toPy (o : JsonObject) : Mapping PyVal where
  entries := o.entries.map fun e => ⟨e.1, e.2.toPy⟩
  nodupKeys := by
    rw [List.NodupKeys, List.keys, List.map_map]
    exact o.nodupKeys

@[simp] theorem entries_toPy (o : JsonObject) :
    o.toPy.entries = o.entries.map fun e => ⟨e.1, e.2.toPy⟩ := rfl

@[simp] theorem keys_toPy (o : JsonObject) : o.toPy.keys = o.keys := by
  show (o.entries.map _).map Sigma.fst = _
  rw [List.map_map]
  rfl

/-- The row keeps the payload contract. -/
def RowAccepted (e : AgentEvent) : Prop := Accepted e.eventType e.payload.toPy

instance (e : AgentEvent) : Decidable (RowAccepted e) := inferInstanceAs (Decidable (Accepted _ _))

@[simp] theorem toPy_eq_none {j : Json} : j.toPy = .none ↔ j = .null := by
  cases j with
  | num m s => cases s <;> simp [Json.toPy]
  | _ => simp [Json.toPy]

/-- A row is accepted when its fields are allowed, its values pass and no required field is
missing. -/
theorem accepted_toPy_iff {eventType : String} (required optional : List String)
    (hf : eventFields.lookup eventType = some (required, optional))
    (hd : eventType ≠ "agent.dispatched") {o : JsonObject} :
    Accepted eventType o.toPy ↔ (∀ e ∈ o.entries, e.1 ∈ required ++ optional) ∧
      (∀ e ∈ o.entries, e.2 ≠ .null → Acceptable eventType e.1 e.2.toPy) ∧
      ∀ key ∈ required, ∃ e ∈ o.entries, e.2 ≠ .null ∧ e.1 = key := by
  have hkeys : (∀ key ∈ o.toPy.keys, key ∈ required ++ optional) ↔
      ∀ e ∈ o.entries, e.1 ∈ required ++ optional := by
    rw [keys_toPy]
    exact List.forall_mem_map
  have hvals : (∀ e ∈ o.toPy.entries, e.2 ≠ .none → Acceptable eventType e.1 e.2) ↔
      ∀ e ∈ o.entries, e.2 ≠ .null → Acceptable eventType e.1 e.2.toPy := by
    rw [entries_toPy, List.forall_mem_map]
    simp only [ne_eq, toPy_eq_none]
  have hreq : ∀ key, key ∈ (withoutNone o.toPy).keys ↔
      ∃ e ∈ o.entries, e.2 ≠ .null ∧ e.1 = key := by
    intro key
    rw [Mapping.mem_keys]
    simp [List.mem_filter, and_assoc]
  rw [accepted_iff hf hd, hkeys, hvals]
  simp only [hreq]

/-- The same for a payload without its nulls. -/
theorem accepted_strip_iff {eventType : String} (required optional : List String)
    (hf : eventFields.lookup eventType = some (required, optional))
    (hd : eventType ≠ "agent.dispatched") {o : JsonObject}
    (hkeys : ∀ e ∈ o.entries, e.1 ∈ required ++ optional) :
    Accepted eventType (jsonbStripNulls o).toPy ↔
      (∀ e ∈ o.entries, e.2 ≠ .null → Acceptable eventType e.1 e.2.toPy) ∧
      ∀ key ∈ required, ∃ e ∈ o.entries, e.2 ≠ .null ∧ e.1 = key := by
  have hmem : ∀ e, e ∈ (jsonbStripNulls o).entries ↔ e ∈ o.entries ∧ e.2 ≠ .null := by
    intro e
    simp [jsonbStripNulls]
  rw [accepted_toPy_iff required optional hf hd]
  simp only [hmem]
  constructor
  · rintro ⟨-, hvals, hreq⟩
    refine ⟨fun e he hne => hvals e ⟨he, hne⟩ hne, fun key hkey => ?_⟩
    obtain ⟨e, he, -, hk⟩ := hreq key hkey
    exact ⟨e, he.1, he.2, hk⟩
  · intro ⟨hvals, hreq⟩
    refine ⟨fun e he => hkeys e he.1, fun e he => hvals e he.1, fun key hkey => ?_⟩
    obtain ⟨e, he, hne, hk⟩ := hreq key hkey
    exact ⟨e, ⟨he, hne⟩, hne, hk⟩

/-- A `text` value that may be missing. -/
theorem acceptable_ofText_iff {eventType key : String} {s : Option String} :
    (Json.ofText s ≠ .null → Acceptable eventType key (Json.ofText s).toPy) ↔
      ∀ v, s = some v → Acceptable eventType key (.str v) := by
  cases s with
  | none => simp [Json.ofText]
  | some v => simp [Json.ofText, Json.toPy]

/-! ## Timestamps -/

/-- The characters of a timestamp. -/
def isoChars : List Char := "0123456789-T:.+".toList

theorem mem_isoChars_of_isDigit {c : Char} (h : c.isDigit = true) : c ∈ isoChars := by
  have hrange := h
  rw [Char.isDigit, Bool.and_eq_true, decide_eq_true_eq, decide_eq_true_eq] at hrange
  have hlow : 48 ≤ c.toNat := hrange.1
  have hhigh : c.toNat ≤ 57 := hrange.2
  clear h hrange
  have hc : c = Char.ofNat c.toNat := (Char.ofNat_toNat c).symm
  generalize c.toNat = n at hlow hhigh hc
  subst hc
  interval_cases n <;> decide

theorem paddedDigits_chars (width n : Nat) : ∀ c ∈ paddedDigits width n, c ∈ isoChars := by
  intro c hc
  rcases List.mem_append.1 hc with hc | hc
  · rw [List.eq_of_mem_replicate hc]
    decide
  · exact mem_isoChars_of_isDigit (Nat.isDigit_of_mem_toDigits (by decide) (by decide) hc)

theorem fractionDigits_chars (n : Nat) : ∀ c ∈ fractionDigits n, c ∈ isoChars := by
  intro c hc
  refine paddedDigits_chars 6 n c ?_
  rw [fractionDigits, List.mem_reverse] at hc
  exact List.mem_reverse.1 ((List.dropWhile_sublist _).subset hc)

theorem isoText_chars (t : Timestamp) : ∀ c ∈ (isoText t).toList, c ∈ isoChars := by
  have hdash : ∀ c ∈ ['-'], c ∈ isoChars := List.forall_mem_singleton.2 (by decide)
  have hday : ∀ c ∈ ['T'], c ∈ isoChars := List.forall_mem_singleton.2 (by decide)
  have hcolon : ∀ c ∈ [':'], c ∈ isoChars := List.forall_mem_singleton.2 (by decide)
  have hoffset : ∀ c ∈ "+00:00".toList, c ∈ isoChars := List.forall_iff_forall_mem.1 (by decide)
  have hfraction : ∀ n, ∀ c ∈ if (fractionDigits n).isEmpty then [] else '.' :: fractionDigits n,
      c ∈ isoChars := by
    intro n
    split
    · exact List.forall_mem_nil _
    · exact List.forall_mem_cons.2 ⟨by decide, fractionDigits_chars n⟩
  unfold isoText
  rw [String.toList_ofList]
  simp only [List.forall_mem_append]
  refine ⟨⟨⟨⟨⟨⟨⟨⟨⟨⟨⟨⟨?_, hdash⟩, ?_⟩, hdash⟩, ?_⟩, hday⟩, ?_⟩, hcolon⟩, ?_⟩, hcolon⟩, ?_⟩,
    hfraction _⟩, hoffset⟩
  all_goals exact paddedDigits_chars _ _

theorem isoText_clean (t : Timestamp) : CleanText (isoText t) := by
  refine ⟨?_, ?_⟩
  · intro h
    have hmem : '-' ∈ (isoText t).toList := by
      unfold isoText
      generalize civilDate (t / 86400000000) = date
      rw [String.toList_ofList]
      simp only [List.mem_append, List.mem_singleton, true_or, or_true]
    rw [h] at hmem
    cases hmem
  · rw [hasSecretWord_eq [] (List.nil_subset _)]
    · rfl
    have hno : ∀ c ∈ isoChars, 'e' ∉ lowerChar c ∧ 'o' ∉ lowerChar c :=
      List.forall_iff_forall_mem.1 (by decide)
    have hword : ∀ w ∈ secretWords, 'e' ∈ w.toList ∨ 'o' ∈ w.toList := by decide
    intro w hw
    right
    rcases hword w hw with he | ho
    · refine ⟨'e', he, fun hmem => ?_⟩
      obtain ⟨c, hc, hlow⟩ := List.mem_flatMap.1 (toList_lower _ ▸ hmem)
      exact (hno c (isoText_chars t c hc)).1 hlow
    · refine ⟨'o', ho, fun hmem => ?_⟩
      obtain ⟨c, hc, hlow⟩ := List.mem_flatMap.1 (toList_lower _ ▸ hmem)
      exact (hno c (isoText_chars t c hc)).2 hlow

/-! ## Posted rows -/

/-- All numbers with a fraction look alike to the validator. -/
theorem validateValue_float (eventType key : String) (m m' : Int) (n n' : Nat) :
    validateValue eventType key (.float (.finite m n)) =
      validateValue eventType key (.float (.finite m' n')) := by
  have hmember : ∀ names : List String, isMember (.float (.finite m n)) names =
      isMember (.float (.finite m' n')) names := by
    intro names
    simp [isMember, PyVal.hashKey]
  simp only [validateValue, validateEnum, hmember]
  rfl

/-- What is written as JSON and read back is accepted again. -/
theorem acceptable_roundtrip {eventType key : String} {v : PyVal} {j : Json}
    (hj : v.toJson = .ok j) (h : Acceptable eventType key v) : Acceptable eventType key j.toPy := by
  cases v with
  | none | str | bool | int =>
      cases hj
      exact h
  | float x =>
      cases x with
      | nan | inf => cases hj
      | finite m n =>
          cases n with
          | zero =>
              cases hj
              unfold Acceptable at h ⊢
              exact (validateValue_float _ _ _ _ _ _).trans h
          | succ n =>
              cases hj
              exact h
  | object cls text =>
      cases cls <;> cases hj <;> cases h

theorem toPy_ne_none {v : PyVal} {j : Json} (hj : v.toJson = .ok j) (hv : v ≠ .none) :
    j.toPy ≠ .none := by
  rw [ne_eq, toPy_eq_none]
  intro hnull
  subst hnull
  cases v with
  | none => exact hv rfl
  | str | bool | int => cases hj
  | float x =>
      cases x with
      | nan | inf => cases hj
      | finite m n => cases n <;> cases hj
  | object cls text => cases cls <;> cases hj

theorem mem_convertEntries {α β : Type} {f : α → Except Exc β}
    {es : List (Sigma fun _ : String => α)} {es' : List (Sigma fun _ : String => β)}
    (h : convertEntries f es = .ok es') : ∀ e' ∈ es', ∃ e ∈ es, e.1 = e'.1 ∧ f e.2 = .ok e'.2 := by
  induction es generalizing es' with
  | nil =>
      cases h
      exact nofun
  | cons e es ih =>
      unfold convertEntries at h
      obtain ⟨v, hv, h⟩ := bind_eq_ok.1 h
      obtain ⟨rest, hrest, h⟩ := bind_eq_ok.1 h
      cases h
      intro e' he'
      rcases List.mem_cons.1 he' with rfl | he'
      · exact ⟨e, List.mem_cons_self, rfl, hv⟩
      · obtain ⟨e₀, he₀, hkey, hval⟩ := ih hrest e' he'
        exact ⟨e₀, List.mem_cons_of_mem _ he₀, hkey, hval⟩

theorem jsonBody_eq_ok {payload : Mapping PyVal} {body : JsonObject}
    (h : jsonBody payload = .ok body) :
    convertEntries PyVal.toJson payload.entries = .ok body.entries := by
  unfold jsonBody at h
  split at h
  · cases h
    assumption
  · cases h

/-- **A posted row is accepted**: the payload was normalized before it was written. -/
theorem event_row_accepted {runId issueId agent kind : String} {payload : Mapping PyVal}
    {body : JsonObject} (h : validateEventPayload kind (.mapping payload) >>= jsonBody = .ok body) :
    RowAccepted ⟨runId, issueId, agent, kind, body⟩ := by
  obtain ⟨normalized, hvalid, hbody⟩ := bind_eq_ok.1 h
  obtain ⟨required, optional, hf, hkeys, hvals, hreq, hd, -⟩ :=
    validateEventPayload_eq_ok_iff.1 (validateEventPayload_normalized hvalid)
  have hnone : ∀ e ∈ normalized.entries, e.2 ≠ .none := by
    intro e he
    obtain ⟨-, -, -, -, -, -, -, rfl⟩ := validateEventPayload_eq_ok_iff.1 hvalid
    simpa using (List.mem_filter.1 he).2
  have hself : withoutNone normalized = normalized := by
    apply AList.ext
    exact List.filter_eq_self.2 fun e he => by simp [hnone e he]
  have hconvert := jsonBody_eq_ok hbody
  have hsame : body.toPy.keys = normalized.keys := by
    rw [keys_toPy]
    exact keys_convertEntries hconvert
  have hentry : ∀ e ∈ body.toPy.entries, ∃ e₀ ∈ normalized.entries, e₀.1 = e.1 ∧
      ∃ j : Json, e₀.2.toJson = .ok j ∧ e.2 = j.toPy := by
    intro e he
    obtain ⟨e', he', rfl⟩ := List.mem_map.1 he
    obtain ⟨e₀, he₀, hkey, hval⟩ := mem_convertEntries hconvert e' he'
    exact ⟨e₀, he₀, hkey, e'.2, hval, rfl⟩
  have hfull : withoutNone body.toPy = body.toPy := by
    apply AList.ext
    refine List.filter_eq_self.2 fun e he => ?_
    obtain ⟨e₀, he₀, -, j, hj, heq⟩ := hentry e he
    simp only [heq, decide_eq_true_eq, ne_eq]
    exact toPy_ne_none hj (hnone e₀ he₀)
  rw [hself] at hreq hd
  have hok : validateEventPayload kind (.mapping body.toPy) = .ok body.toPy := by
    refine validateEventPayload_eq_ok_iff.2 ⟨required, optional, hf, ?_, ?_, ?_, ?_, hfull.symm⟩
    · rw [hsame]
      exact hkeys
    · intro e he hne
      obtain ⟨e₀, he₀, hkey, j, hj, heq⟩ := hentry e he
      rw [heq, ← hkey]
      exact acceptable_roundtrip hj (hvals e₀ he₀ (hnone e₀ he₀))
    · rw [hfull, hsame]
      exact hreq
    · rw [hfull, hsame]
      intro hkind hne
      refine hd hkind fun hnil => hne ?_
      have hlen : body.toPy.keys = [] := by
        rw [hsame]
        show normalized.entries.map Sigma.fst = []
        rw [hnil]
        rfl
      exact List.map_eq_nil_iff.1 hlen
  show (validateEventPayload kind (.mapping body.toPy)).toOption.isSome
  rw [hok]
  rfl

/-! ## Rows of the runtime functions -/

variable {runId issueId agent : String}

theorem created_accepted : RowAccepted ⟨runId, issueId, agent, "run.created", .mk []⟩ :=
  show Accepted "run.created" (JsonObject.toPy (.mk [])) by decide

theorem acquired_accepted {ttl : Int} (httl : 0 ≤ ttl) (t : Timestamp) :
    RowAccepted ⟨runId, issueId, agent, "lock.acquired", .mk [
      ⟨"ttl_seconds", .num ttl 0⟩, ⟨"expires_at", .str (isoText t)⟩]⟩ := by
  have henum : enums.lookup "ttl_seconds" = none := rfl
  have hpat : idPatterns.lookup "ttl_seconds" = none := rfl
  have hint : Acceptable "lock.acquired" "ttl_seconds" (.int ttl) := by
    simp [Acceptable, validateValue, validateText, validateEnum, isContainer, isIntValue, httl,
      henum, hpat, bind_unit_eq_ok, urlFields, pure, Except.pure]
  have htext : Acceptable "lock.acquired" "expires_at" (.str (isoText t)) :=
    (acceptable_iff_clean (by decide) rfl rfl (by decide)).2 (isoText_clean t)
  unfold RowAccepted
  rw [accepted_toPy_iff ["ttl_seconds", "expires_at"] [] rfl
    (by simp)]
  simp [Json.toPy, hint, htext]

/-- The labels an accepted issue starts its run with. -/
theorem started_accepted {risk mode environment : String} (hrisk : risk ∈ ["low", "medium", "high"])
    (hmode : mode = "auto") (henv : environment ∈ ["local", "preview", "staging"]) :
    RowAccepted ⟨runId, issueId, agent, "run.started", .mk [
      ⟨"risk", .ofText (some risk)⟩, ⟨"execution_mode", .ofText (some mode)⟩,
      ⟨"environment", .ofText (some environment)⟩]⟩ := by
  have hrisks : ∀ r ∈ ["low", "medium", "high"], Acceptable "run.started" "risk" (.str r) := by
    decide
  have hauto : Acceptable "run.started" "execution_mode" (.str "auto") := by decide
  have henvs : ∀ e ∈ ["local", "preview", "staging"],
      Acceptable "run.started" "environment" (.str e) := by decide
  have hrisk' := hrisks risk hrisk
  have henv' := henvs environment henv
  subst hmode
  unfold RowAccepted
  rw [accepted_toPy_iff [] ["linear_status_to", "risk", "execution_mode", "environment"] rfl
    (by simp)]
  simp [Json.toPy, Json.ofText, hrisk', hauto, henv']

theorem rejected_accepted_iff {attemptedRun : String} :
    RowAccepted (lockRejectedEvent runId issueId agent attemptedRun) ↔ CleanText attemptedRun := by
  have hreason : Acceptable "lock.rejected" "reason" (.str "RunConflict") := by decide
  have hrun : Acceptable "lock.rejected" "attempted_run_id" (.str attemptedRun) ↔
      CleanText attemptedRun := acceptable_iff_clean (by decide) rfl rfl (by decide)
  unfold RowAccepted lockRejectedEvent
  rw [accepted_toPy_iff ["reason"] ["attempted_run_id"] rfl (by simp)]
  simp [Json.toPy, hreason, hrun]

theorem released_accepted {text : String}
    (h : text ∈ ["completed", "failed", "blocked", "canceled"]) :
    RowAccepted ⟨runId, issueId, agent, "lock.released", .mk [
      ⟨"finished_status", .str text⟩]⟩ := by
  have htext : ∀ s ∈ ["completed", "failed", "blocked", "canceled"],
      Acceptable "lock.released" "finished_status" (.str s) := by decide
  unfold RowAccepted
  rw [accepted_toPy_iff [] ["finished_status"] rfl (by simp)]
  simp [Json.toPy, htext text h]

theorem expired_accepted (t : Timestamp) (heartbeatAt : Option Timestamp) :
    RowAccepted ⟨runId, issueId, agent, "lock.expired", jsonbStripNulls (.mk [
      ⟨"expired_at", .str (isoText t)⟩,
      ⟨"last_heartbeat_at", .ofText (heartbeatAt.map isoText)⟩])⟩ := by
  have hclean : ∀ key ∈ ["expired_at", "last_heartbeat_at"], ∀ t,
      Acceptable "lock.expired" key (.str (isoText t)) := by
    intro key hkey t
    simp only [List.mem_cons, List.not_mem_nil, or_false] at hkey
    rcases hkey with rfl | rfl <;>
      exact (acceptable_iff_clean (by decide) rfl rfl (by decide)).2 (isoText_clean t)
  unfold RowAccepted
  rw [accepted_strip_iff ["expired_at"] ["last_heartbeat_at", "ttl_seconds"] rfl (by simp)
    (by simp)]
  simp only [List.forall_mem_cons, acceptable_ofText_iff, Option.map_eq_some_iff]
  refine ⟨⟨fun _ => hclean _ (by simp) t, ?_, nofun⟩, ?_, nofun⟩
  · rintro _ ⟨t', -, rfl⟩
    exact hclean _ (by simp) t'
  · exact ⟨_, List.mem_cons_self, by simp⟩

theorem recovered_accepted_iff {previousRun : String} :
    RowAccepted ⟨runId, issueId, agent, "lock.recovered", .mk [
      ⟨"previous_run_id", .str previousRun⟩]⟩ ↔ CleanText previousRun := by
  have hrun : Acceptable "lock.recovered" "previous_run_id" (.str previousRun) ↔
      CleanText previousRun := acceptable_iff_clean (by decide) rfl rfl (by decide)
  unfold RowAccepted
  rw [accepted_toPy_iff [] ["recovered_by", "previous_run_id"] rfl
    (by simp)]
  simp [Json.toPy, hrun]

/-! ### Finished runs -/

theorem getText_jsonFields (fields : Mapping String) (key : String) :
    (jsonFields fields).getText key = fields.lookup key := by
  obtain ⟨entries, hnodup⟩ := fields
  show (List.dlookup key (entries.map fun e => (⟨e.1, Json.str e.2⟩ : Sigma fun _ => Json))).bind
    Json.text = List.dlookup key entries
  clear hnodup
  induction entries with
  | nil => rfl
  | cons e entries ih =>
      obtain ⟨k, v⟩ := e
      by_cases hk : key = k
      · subst hk
        simp [Json.text]
      · rw [List.map_cons, List.dlookup_cons_ne _ _ hk, List.dlookup_cons_ne _ _ hk]
        exact ih

theorem lookup_ofOptions {β : Type} {items : List (String × Option β)}
    (h : (items.map Prod.fst).Nodup) {key : String} {v : Option β} (hmem : (key, v) ∈ items) :
    (Mapping.ofOptions items h).lookup key = v := by
  cases v with
  | some b =>
      refine AList.mem_lookup_iff.2 (List.mem_filterMap.2 ⟨(key, some b), hmem, rfl⟩)
  | none =>
      rw [AList.lookup_eq_none, AList.mem_keys, Mapping.mem_keys]
      intro ⟨e, he, hk⟩
      obtain ⟨⟨k, v⟩, hitem, hv⟩ := List.mem_filterMap.1 he
      obtain ⟨b, rfl, rfl⟩ := Option.map_eq_some_iff.1 hv
      subst hk
      cases List.inj_on_of_nodup_map h hitem hmem rfl

/-- The fields of a result as the row of a completed run takes them. -/
def CleanResult (result : ExecutionResult) : Prop :=
  ∀ e ∈ result.fields.entries, Acceptable "run.completed" e.1 (.str e.2)

instance (result : ExecutionResult) : Decidable (CleanResult result) :=
  inferInstanceAs (Decidable (∀ e ∈ _, _))

/-- The fields that are there, one by one. -/
theorem cleanResult_iff {result : ExecutionResult} : CleanResult result ↔
    (∀ v, result.commitSha = some v → Acceptable "run.completed" "commit_sha" (.str v)) ∧
    (∀ v, result.pullRequestUrl = some v →
      Acceptable "run.completed" "pull_request_url" (.str v)) ∧
    (∀ v, result.railwayDeploymentId = some v →
      Acceptable "run.completed" "railway_deployment_id" (.str v)) ∧
    (∀ v, result.testsStatus = some v → Acceptable "run.completed" "tests_status" (.str v)) ∧
    ∀ v, result.reviewStatus = some v → Acceptable "run.completed" "review_status" (.str v) := by
  unfold CleanResult ExecutionResult.fields Mapping.ofOptions
  simp [List.mem_filterMap, or_imp, forall_and]

theorem completed_accepted_iff {result : ExecutionResult} :
    RowAccepted ⟨runId, issueId, agent, "run.completed",
      finishPayload (jsonFields result.fields) .completed⟩ ↔ CleanResult result := by
  have hfield : ∀ key v, (key, v) ∈ [
      ("commit_sha", result.commitSha), ("pull_request_url", result.pullRequestUrl),
      ("railway_deployment_id", result.railwayDeploymentId), ("tests_status", result.testsStatus),
      ("review_status", result.reviewStatus)] →
      (jsonFields result.fields).getText key = v := by
    intro key v hmem
    rw [getText_jsonFields]
    exact lookup_ofOptions _ hmem
  unfold RowAccepted finishPayload
  rw [accepted_strip_iff [] ["commit_sha", "pull_request_url",
    "railway_deployment_id", "tests_status", "review_status"] rfl (by simp) (by simp),
    cleanResult_iff, hfield "commit_sha" result.commitSha (by simp),
    hfield "pull_request_url" result.pullRequestUrl (by simp),
    hfield "railway_deployment_id" result.railwayDeploymentId (by simp),
    hfield "tests_status" result.testsStatus (by simp),
    hfield "review_status" result.reviewStatus (by simp)]
  simp only [List.forall_mem_cons, acceptable_ofText_iff]
  simp

/-- What a finish with an error finds in its fields. -/
theorem getText_errorFields (name : String) :
    (jsonFields (errorFields name)).getText "error" = some name ∧
      (jsonFields (errorFields name)).getText "error_code" = some name ∧
      ∀ key, key ≠ "error" → key ≠ "error_code" →
        (jsonFields (errorFields name)).getText key = none := by
  refine ⟨by rw [getText_jsonFields]; rfl, by rw [getText_jsonFields]; rfl, ?_⟩
  intro key hne hne'
  rw [getText_jsonFields]
  show List.dlookup key [_, _] = none
  rw [List.dlookup_cons_ne _ _ hne, List.dlookup_cons_ne _ _ hne', List.dlookup_nil]

/-- The error recorded: never empty, and clean where the name and the fallback are. -/
theorem errorText_errorFields (name fallback : String) :
    errorText (jsonFields (errorFields name)) fallback =
      .str (if name = "" then fallback else name) := by
  unfold errorText
  rw [(getText_errorFields name).1]
  by_cases h : name = "" <;> simp [h, Option.filter]

theorem failed_accepted_iff {name : String} :
    RowAccepted ⟨runId, issueId, agent, "run.failed",
      finishPayload (jsonFields (errorFields name)) .failed⟩ ↔ CleanText name := by
  obtain ⟨-, hcode, hother⟩ := getText_errorFields name
  have herror : ∀ s, Acceptable "run.failed" "error" (.str s) ↔ CleanText s := fun s =>
    acceptable_iff_clean (by decide) rfl rfl (by decide)
  have hcode' : ∀ s, Acceptable "run.failed" "error_code" (.str s) ↔ CleanText s := fun s =>
    acceptable_iff_clean (by decide) rfl rfl (by decide)
  unfold RowAccepted finishPayload
  rw [accepted_strip_iff ["error"] ["error_code", "kanban_task_id", "kanban_outcome"] rfl
    (by simp) (by simp), hcode, hother "kanban_task_id" (by simp) (by simp),
    hother "kanban_outcome" (by simp) (by simp), errorText_errorFields]
  simp only [List.forall_mem_cons, acceptable_ofText_iff]
  by_cases h : name = ""
  · simp [h, Json.toPy, herror, hcode', CleanText]
  · simp [h, Json.toPy, herror, hcode']

theorem blocked_accepted_iff {name : String} :
    RowAccepted ⟨runId, issueId, agent, "run.blocked",
      finishPayload (jsonFields (errorFields name)) .blocked⟩ ↔ hasSecretWord name = false := by
  obtain ⟨-, -, hother⟩ := getText_errorFields name
  have herror : ∀ s, Acceptable "run.blocked" "error" (.str s) ↔ CleanText s := fun s =>
    acceptable_iff_clean (by decide) rfl rfl (by decide)
  have hfallback : CleanText "ExecutionBlocked" := by decide
  unfold RowAccepted finishPayload
  rw [accepted_strip_iff ["error"]
    ["blocked_reason", "kanban_task_id", "tests_status", "review_status"] rfl (by simp) (by simp),
    hother "blocked_reason" (by simp) (by simp),
    hother "kanban_task_id" (by simp) (by simp), hother "tests_status" (by simp) (by simp),
    hother "review_status" (by simp) (by simp), errorText_errorFields]
  simp only [List.forall_mem_cons, acceptable_ofText_iff]
  by_cases h : name = ""
  · have hempty : hasSecretWord "" = false := by decide
    simp [h, Json.toPy, herror, hfallback, hempty]
  · simp [h, Json.toPy, herror, CleanText]

end HermesRuntime
