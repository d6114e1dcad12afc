import HermesRuntime.Payloads
import Mathlib.Data.List.Infix

/-!
# The event payload contract: when a payload is accepted

* `validateEventPayload_eq_ok_iff` — a payload is accepted exactly when its fields are allowed,
  its values pass, no required field is missing, and the result is the payload without its
  `None` entries.
* `validateEventPayload_normalized` — a normalized payload is accepted again, unchanged.
* `validateValue_congr` — only `environment` and `reason` are judged by event type.
* `hasSecretWord_eq` — which secret words a text with few characters can hold.
-/

namespace HermesRuntime

/-! ## Checks that raise -/

@[simp] theorem require_eq_ok {check : Bool} {message : String} :
    require check message = .ok () ↔ check = true := by
  unfold require
  split <;> simp_all

theorem bind_eq_ok {α β ε : Type} {x : Except ε α} {f : α → Except ε β} {b : β} :
    (x >>= f) = .ok b ↔ ∃ a, x = .ok a ∧ f a = .ok b := by
  cases x with
  | error e => simp [bind, Except.bind]
  | ok a => simp [bind, Except.bind]

theorem bind_unit_eq_ok {β ε : Type} {x : Except ε Unit} {f : Unit → Except ε β} {b : β} :
    (x >>= f) = .ok b ↔ x = .ok () ∧ f () = .ok b := by
  rw [bind_eq_ok]
  exact ⟨fun ⟨_, h⟩ => h, fun h => ⟨(), h⟩⟩

theorem forM_eq_ok {α ε : Type} {f : α → Except ε Unit} {xs : List α} :
    xs.forM f = .ok () ↔ ∀ x ∈ xs, f x = .ok () := by
  induction xs with
  | nil => simp [List.forM_eq_forM, pure, Except.pure]
  | cons x xs ih =>
      rw [List.forM_eq_forM] at ih ⊢
      rw [List.forM_cons, bind_unit_eq_ok, ih]
      simp

@[simp] theorem sortedStrings_isEmpty (xs : List String) :
    (sortedStrings xs).isEmpty = xs.isEmpty :=
  (List.perm_insertionSort _ xs).isEmpty_eq

/-! ## Values -/

/-- `value` passes the checks of the field `key` in events of this type. -/
def Acceptable (eventType key : String) (value : PyVal) : Prop :=
  validateValue eventType key value = .ok ()

instance (eventType key : String) (value : PyVal) : Decidable (Acceptable eventType key value) :=
  inferInstanceAs (Decidable (_ = _))

/-- Only `environment` and `reason` are judged by the type of the event. -/
theorem validateValue_congr {key : String} (he : key ≠ "environment") (hr : key ≠ "reason")
    (eventType eventType' : String) (value : PyVal) :
    validateValue eventType key value = validateValue eventType' key value := by
  simp [validateValue, validateEnum, he, hr]

theorem acceptable_congr {key : String} (he : key ≠ "environment") (hr : key ≠ "reason")
    {eventType : String} (eventType' : String) {value : PyVal} :
    Acceptable eventType key value ↔ Acceptable eventType' key value := by
  rw [Acceptable, Acceptable, validateValue_congr he hr]

/-- A field without an enumeration passes the enumeration checks. -/
theorem validateEnum_eq_ok {eventType key : String} {value : PyVal}
    (henum : enums.lookup key = none) : validateEnum eventType key value = .ok () := by
  have henv : key ≠ "environment" := by
    intro h
    subst h
    exact absurd henum (by decide)
  simp only [validateEnum, henum, henv, decide_false, Bool.false_and]
  rfl

/-- What the validator asks of a text in a field without an enumeration. -/
theorem acceptable_text_iff {eventType key s : String} (hint : key ∉ intFields)
    (henum : enums.lookup key = none) (hurl : key ∉ urlFields) :
    Acceptable eventType key (.str s) ↔ (s ≠ "" ∧ hasSecretWord s = false) ∧
      (idPatterns.lookup key).all (· s) = true := by
  have hcontainer : isContainer (.str s) = false := rfl
  have hpattern : ∀ pattern, matchesPattern pattern (.str s) = pattern s := fun _ => rfl
  have hpure : (pure () : Except Exc Unit) = .ok () := rfl
  simp only [Acceptable, validateValue, validateText, validateEnum_eq_ok henum, hcontainer,
    hpattern, hint, hurl, bind_unit_eq_ok, require_eq_ok, hpure, Bool.not_false,
    not_false_eq_true, decide_true, Bool.true_or, if_false, true_and, and_true,
    Bool.not_eq_true', decide_eq_true_eq]

/-- A field without a rule of its own takes every string that is not empty and free of secret
words. -/
theorem acceptable_str_iff {eventType key s : String} (hint : key ∉ intFields)
    (henum : enums.lookup key = none) (hpat : idPatterns.lookup key = none)
    (hurl : key ∉ urlFields) :
    Acceptable eventType key (.str s) ↔ s ≠ "" ∧ hasSecretWord s = false := by
  rw [acceptable_text_iff hint henum hurl, hpat]
  exact and_iff_left rfl

/-! ## Texts -/

/-- A text the validator takes where a field has no rule of its own. -/
def CleanText (s : String) : Prop := s ≠ "" ∧ hasSecretWord s = false

instance (s : String) : Decidable (CleanText s) := inferInstanceAs (Decidable (_ ∧ _))

theorem acceptable_iff_clean {eventType key s : String} (hint : key ∉ intFields)
    (henum : enums.lookup key = none) (hpat : idPatterns.lookup key = none)
    (hurl : key ∉ urlFields) : Acceptable eventType key (.str s) ↔ CleanText s :=
  acceptable_str_iff hint henum hpat hurl

@[simp] theorem toList_lower (s : String) : (lower s).toList = s.toList.flatMap lowerChar := by
  simp [lower]

theorem mem_of_containsText {s word : String} (h : containsText s word = true) {c : Char}
    (hc : c ∈ word.toList) : c ∈ s.toList := by
  obtain ⟨tail, htail, hpre⟩ := List.any_eq_true.1 h
  exact (List.mem_tails _ _).1 htail |>.subset ((List.isPrefixOf_iff_prefix.1 hpre).subset hc)

/-- Only words of which the text has every character can occur in it. -/
theorem hasSecretWord_eq {s : String} (words : List String) (hsub : words ⊆ secretWords)
    (h : ∀ w ∈ secretWords, w ∈ words ∨ ∃ c ∈ w.toList, c ∉ (lower s).toList) :
    hasSecretWord s = words.any (containsText (lower s)) := by
  rw [Bool.eq_iff_iff, hasSecretWord, List.any_eq_true, List.any_eq_true]
  constructor
  · intro ⟨w, hw, hin⟩
    rcases h w hw with hmem | ⟨c, hc, hno⟩
    · exact ⟨w, hmem, hin⟩
    · exact absurd (mem_of_containsText hin hc) hno
  · intro ⟨w, hw, hin⟩
    exact ⟨w, hsub hw, hin⟩

/-! ## Payloads -/

/-- The payload is accepted for events of this type. -/
def Accepted (eventType : String) (payload : Mapping PyVal) : Prop :=
  (validateEventPayload eventType (.mapping payload)).toOption.isSome

instance (eventType : String) (payload : Mapping PyVal) : Decidable (Accepted eventType payload) :=
  inferInstanceAs (Decidable (_ = _))

theorem validateFields_eq_ok_iff {eventType : String} {required optional : List String}
    {payload normalized : Mapping PyVal} :
    validateFields eventType required optional payload = .ok normalized ↔
      (∀ key ∈ payload.keys, key ∈ required ++ optional) ∧
        (∀ e ∈ payload.entries, e.2 ≠ .none → Acceptable eventType e.1 e.2) ∧
        (∀ key ∈ required, key ∈ (withoutNone payload).keys) ∧
        (eventType = "agent.dispatched" → (withoutNone payload).entries ≠ [] →
          "kanban_task_id" ∈ (withoutNone payload).keys) ∧
        normalized = withoutNone payload := by
  unfold validateFields
  have hvalue : ∀ e : Sigma fun _ : String => PyVal,
      (if e.2 = .none then pure () else validateValue eventType e.1 e.2) = .ok () ↔
        (e.2 ≠ .none → Acceptable eventType e.1 e.2) := by
    intro e
    by_cases he : e.2 = .none
    · simp [he, pure, Except.pure]
    · simp [he, Acceptable]
  have hkanban : (decide (eventType ≠ "agent.dispatched") ||
      (withoutNone payload).entries.isEmpty ||
        decide ("kanban_task_id" ∈ (withoutNone payload).keys)) = true ↔
      (eventType = "agent.dispatched" → (withoutNone payload).entries ≠ [] →
        "kanban_task_id" ∈ (withoutNone payload).keys) := by
    simp only [Bool.or_eq_true, decide_eq_true_eq, List.isEmpty_iff]
    tauto
  simp only [bind_unit_eq_ok, require_eq_ok, sortedStrings_isEmpty, forM_eq_ok, hvalue, hkanban,
    List.isEmpty_iff, List.filter_eq_nil_iff, decide_eq_true_eq, Decidable.not_not]
  simp only [pure, Except.pure, Except.ok.injEq, eq_comm]

/-- **When a payload is accepted, and what is returned.** -/
theorem validateEventPayload_eq_ok_iff {eventType : String} {payload normalized : Mapping PyVal} :
    validateEventPayload eventType (.mapping payload) = .ok normalized ↔
      ∃ required optional, eventFields.lookup eventType = some (required, optional) ∧
        (∀ key ∈ payload.keys, key ∈ required ++ optional) ∧
        (∀ e ∈ payload.entries, e.2 ≠ .none → Acceptable eventType e.1 e.2) ∧
        (∀ key ∈ required, key ∈ (withoutNone payload).keys) ∧
        (eventType = "agent.dispatched" → (withoutNone payload).entries ≠ [] →
          "kanban_task_id" ∈ (withoutNone payload).keys) ∧
        normalized = withoutNone payload := by
  unfold validateEventPayload
  cases hf : eventFields.lookup eventType with
  | none => simp
  | some fields =>
      rw [validateFields_eq_ok_iff]
      constructor
      · intro h
        exact ⟨_, _, rfl, h⟩
      · rintro ⟨required, optional, heq, h⟩
        cases heq
        exact h

theorem accepted_iff_ok {eventType : String} {payload : Mapping PyVal} :
    Accepted eventType payload ↔
      ∃ normalized, validateEventPayload eventType (.mapping payload) = .ok normalized := by
  unfold Accepted
  cases validateEventPayload eventType (.mapping payload) <;> simp [Except.toOption]

theorem accepted_iff {eventType : String} {required optional : List String}
    (hf : eventFields.lookup eventType = some (required, optional))
    (hd : eventType ≠ "agent.dispatched") {payload : Mapping PyVal} :
    Accepted eventType payload ↔
      (∀ key ∈ payload.keys, key ∈ required ++ optional) ∧
        (∀ e ∈ payload.entries, e.2 ≠ .none → Acceptable eventType e.1 e.2) ∧
        ∀ key ∈ required, key ∈ (withoutNone payload).keys := by
  rw [accepted_iff_ok]
  constructor
  · rintro ⟨normalized, h⟩
    obtain ⟨_, _, hf', hkeys, hvals, hreq, -, -⟩ := validateEventPayload_eq_ok_iff.1 h
    rw [hf] at hf'
    cases hf'
    exact ⟨hkeys, hvals, hreq⟩
  · intro ⟨hkeys, hvals, hreq⟩
    exact ⟨_, validateEventPayload_eq_ok_iff.2
      ⟨_, _, hf, hkeys, hvals, hreq, fun h => absurd h hd, rfl⟩⟩

theorem withoutNone_withoutNone (payload : Mapping PyVal) :
    withoutNone (withoutNone payload) = withoutNone payload := by
  apply AList.ext
  simp

/-- **A normalized payload is accepted again, and comes back unchanged.** -/
theorem validateEventPayload_normalized {eventType : String} {payload normalized : Mapping PyVal}
    (h : validateEventPayload eventType (.mapping payload) = .ok normalized) :
    validateEventPayload eventType (.mapping normalized) = .ok normalized := by
  obtain ⟨required, optional, hf, hkeys, hvals, hreq, hd, rfl⟩ :=
    validateEventPayload_eq_ok_iff.1 h
  have hsub : ∀ e ∈ (withoutNone payload).entries, e ∈ payload.entries := by
    intro e he
    rw [entries_withoutNone, List.mem_filter] at he
    exact he.1
  refine validateEventPayload_eq_ok_iff.2 ⟨required, optional, hf, fun key hkey => ?_,
    fun e he hne => hvals e (hsub e he) hne, ?_, ?_, (withoutNone_withoutNone payload).symm⟩
  · obtain ⟨e, he, rfl⟩ := List.mem_map.1 hkey
    exact hkeys _ (List.mem_map_of_mem (hsub e he))
  · rw [withoutNone_withoutNone]
    exact hreq
  · rw [withoutNone_withoutNone]
    exact hd

end HermesRuntime
