import HermesRuntime.PayloadsProof

/-!
# How closed the payload contract is

An accepted payload has the keys of its event type and no others, and its texts hold no secret
word. But the checks of a value only name the containers they refuse and only look into strings:
what is neither gets through, and with it whatever text it carries.

* `ClosedPayload` — what a closed payload is.
* `closed_payload_iff` — an accepted payload is closed exactly when it was made of JSON scalars.
* `closed_payload_fails` — one that is not.
-/

namespace HermesRuntime

/-- The value is a JSON scalar. -/
def PyVal.isJsonScalar : PyVal → Bool
  | .str _ | .bool _ | .int _ | .float (.finite _ _) => true
  | _ => false

/-- Text the checks of a value do not look into. -/
def PyVal.hiddenText : PyVal → Option String
  | .object _ text => Option.some text
  | _ => Option.none

/-- A part of the text is the word, in some letter case. -/
def OccursIn (word text : String) : Prop :=
  ∃ part, part <:+: text.toList ∧ (lower (String.ofList part)) = word

/-- The items of a payload. -/
def RawPayload.items : RawPayload → Mapping PyVal
  | .mapping items => items
  | .none | .other => ∅

/-- A closed payload for events of this type. -/
structure ClosedPayload (eventType : String) (payload : Mapping PyVal) : Prop where
  keys : ∃ required optional, eventFields.lookup eventType = some (required, optional) ∧
    (∀ key ∈ payload.keys, key ∈ required ++ optional) ∧ ∀ key ∈ required, key ∈ payload.keys
  scalar : ∀ e ∈ payload.entries, e.2.isJsonScalar = true
  text : ∀ e ∈ payload.entries, ∀ s, e.2 = .str s →
    s ≠ "" ∧ ∀ word ∈ secretWords, ¬ OccursIn word s
  nothingHidden : ∀ e ∈ payload.entries, e.2.hiddenText = none
  again : validateEventPayload eventType (.mapping payload) = .ok payload

theorem hiddenText_of_isJsonScalar {value : PyVal} (h : value.isJsonScalar = true) :
    value.hiddenText = none := by
  cases value with
  | object cls text => cases h
  | _ => rfl

/-- A string is accepted only when it is clean, whatever its field. -/
theorem cleanText_of_acceptable {eventType key s : String}
    (h : Acceptable eventType key (.str s)) : CleanText s := by
  unfold Acceptable validateValue at h
  rw [bind_unit_eq_ok, bind_unit_eq_ok] at h
  have htext := h.2.1
  unfold validateText at htext
  rw [bind_unit_eq_ok, require_eq_ok, require_eq_ok, decide_eq_true_iff, Bool.not_eq_true']
    at htext
  exact htext

/-- The search for secret words sees every letter case. -/
theorem not_occursIn_of_clean {s : String} (h : CleanText s) :
    ∀ word ∈ secretWords, ¬ OccursIn word s := by
  rintro word hword ⟨part, ⟨before, after, hsplit⟩, rfl⟩
  have hno : ¬ containsText (lower s) (lower (String.ofList part)) = true :=
    List.any_eq_false.1 h.2 _ hword
  refine hno (List.any_eq_true.2 ⟨part.flatMap lowerChar ++ after.flatMap lowerChar,
    (List.mem_tails _ _).2 ⟨before.flatMap lowerChar, ?_⟩, ?_⟩)
  · rw [toList_lower, ← hsplit, List.flatMap_append, List.flatMap_append, List.append_assoc]
  · rw [toList_lower, String.toList_ofList]
    exact List.isPrefixOf_iff_prefix.2 ⟨_, rfl⟩

/-- `None` is validated like an empty mapping, and what is no mapping is refused. -/
theorem validateEventPayload_items {eventType : String} {payload : RawPayload}
    {normalized : Mapping PyVal} (h : validateEventPayload eventType payload = .ok normalized) :
    validateEventPayload eventType (.mapping payload.items) = .ok normalized := by
  cases payload with
  | mapping items => exact h
  | none => exact h
  | other =>
      unfold validateEventPayload at h
      cases hf : eventFields.lookup eventType with
      | none =>
          rw [hf] at h
          cases h
      | some fields =>
          rw [hf] at h
          cases h

/-- **How closed the contract is.** An accepted payload is closed exactly when every value that
was given is `None`, a string, a boolean, an integer or a finite float. -/
theorem closed_payload_iff {eventType : String} {payload : RawPayload}
    {normalized : Mapping PyVal} (h : validateEventPayload eventType payload = .ok normalized) :
    ClosedPayload eventType normalized ↔
      ∀ e ∈ payload.items.entries, e.2 = .none ∨ e.2.isJsonScalar = true := by
  obtain ⟨required, optional, hf, hkeys, hvals, hreq, -, hnorm⟩ :=
    validateEventPayload_eq_ok_iff.1 (validateEventPayload_items h)
  have hmem : ∀ e, e ∈ normalized.entries ↔ e ∈ payload.items.entries ∧ e.2 ≠ .none := by
    intro e
    rw [hnorm, entries_withoutNone, List.mem_filter, decide_eq_true_iff]
  constructor
  · intro hclosed e he
    by_cases hnone : e.2 = .none
    · exact Or.inl hnone
    · exact Or.inr (hclosed.scalar e ((hmem e).2 ⟨he, hnone⟩))
  · intro hscalar
    have hall : ∀ e ∈ normalized.entries, e.2.isJsonScalar = true := fun e he =>
      (hscalar e ((hmem e).1 he).1).resolve_left ((hmem e).1 he).2
    constructor
    · refine ⟨required, optional, hf, fun key hkey => ?_, fun key hkey => ?_⟩
      · obtain ⟨e, he, rfl⟩ := Mapping.mem_keys.1 hkey
        exact hkeys _ (List.mem_map_of_mem ((hmem e).1 he).1)
      · rw [hnorm]
        exact hreq key hkey
    · exact hall
    · intro e he s hs
      obtain ⟨hin, hne⟩ := (hmem e).1 he
      have hclean : CleanText s := by
        have hacc := hvals e hin hne
        rw [hs] at hacc
        exact cleanText_of_acceptable hacc
      exact ⟨hclean.1, not_occursIn_of_clean hclean⟩
    · exact fun e he => hiddenText_of_isJsonScalar (hall e he)
    · exact validateEventPayload_normalized (validateEventPayload_items h)

/-- A payload of one entry. -/
def riskPayload (risk : PyVal) : Mapping PyVal := .mk [⟨"risk", risk⟩]

theorem closed_payload_low : ClosedPayload "run.started" (riskPayload (.str "low")) := by
  have hok : validateEventPayload "run.started" (.mapping (riskPayload (.str "low"))) =
      .ok (riskPayload (.str "low")) := by rfl
  refine (closed_payload_iff hok).2 fun e he => ?_
  obtain rfl := List.mem_singleton.1 he
  exact Or.inr rfl

/-- Bytes are no JSON scalar, and nobody looks for secrets in them. -/
theorem closed_payload_fails :
    ¬ ∀ (eventType : String) (payload : RawPayload) (normalized : Mapping PyVal),
      validateEventPayload eventType payload = .ok normalized →
        ClosedPayload eventType normalized := by
  intro h
  have hok : validateEventPayload "run.started"
      (.mapping (riskPayload (.object .bytes "github_token=1"))) =
      .ok (riskPayload (.object .bytes "github_token=1")) := by rfl
  cases (h _ _ _ hok).scalar ⟨"risk", .object .bytes "github_token=1"⟩ List.mem_cons_self

end HermesRuntime
