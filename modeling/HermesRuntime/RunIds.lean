import HermesRuntime.PayloadsProof
import HermesRuntime.Runtime
import Mathlib.Data.ZMod.Defs

/-!
# Generated run ids

Every id `new_run_id` builds has the format the validator asks of a `run_id`. The validator also
looks for secret words in it, whatever the letter case, and two of them can be spelled with the
letters of an id.

* `isRunId_newRunId` — the format.
* `hasSecretWord_newRunId` — the secret words an id can hold, read off its digits.
* `run_id_accepted_iff` — when an id is accepted.
-/

namespace HermesRuntime

/-! ## The format -/

/-- The 26 digits of a number in base 32. -/
def base32 (value : Nat) : List Nat := (List.range 26).reverse.map fun i => value / 32 ^ i % 32

theorem lt_of_mem_base32 {value digit : Nat} (h : digit ∈ base32 value) : digit < 32 := by
  obtain ⟨i, -, rfl⟩ := List.mem_map.1 h
  exact Nat.mod_lt _ (by omega)

theorem toList_newRunId (millis : Nat) (random : Fin (2 ^ 80)) :
    (newRunId millis random).toList = 'r' :: 'u' :: 'n' :: '_' ::
      (base32 (millis * 2 ^ 80 + random)).map fun digit => alphabet.getD digit '0' := by
  unfold newRunId base32
  rw [String.toList_ofList, List.map_map]
  rfl

/-- Every generated id has the format of a run id. -/
theorem isRunId_newRunId (millis : Nat) (random : Fin (2 ^ 80)) :
    isRunId (newRunId millis random) = true := by
  have hdigit : ∀ digit < 32, isRunIdChar (alphabet.getD digit '0') = true := by decide
  have hlist := toList_newRunId millis random
  generalize millis * 2 ^ 80 + random = value at hlist
  have hlen : (base32 value).length = 26 := by simp [base32]
  have hpre : startsWith (newRunId millis random) "run_" = true := by
    rw [startsWith, hlist]
    rfl
  have hall : ∀ c ∈ (base32 value).map fun digit => alphabet.getD digit '0',
      isRunIdChar c = true := by
    intro c hc
    obtain ⟨digit, hmem, rfl⟩ := List.mem_map.1 hc
    exact hdigit digit (lt_of_mem_base32 hmem)
  simp only [isRunId, hpre, hlist, List.drop_succ_cons, List.drop_zero, List.length_map, hlen,
    List.all_eq_true.2 hall, decide_true, Bool.and_true]

/-! ## Secret words -/

/-- A word whose letters `f` keeps apart begins a text after `f` where it begins it before. -/
theorem isPrefixOf_map {α β : Type} [BEq β] [LawfulBEq β] {f : α → β} {S : α → Prop}
    (hf : ∀ a, S a → ∀ b, S b → f a = f b → a = b) {word text : List α}
    (hword : ∀ a ∈ word, S a) (htext : ∀ a ∈ text, S a) :
    (word.map f).isPrefixOf (text.map f) = true ↔ word <+: text := by
  induction word generalizing text with
  | nil => simp
  | cons a word ih =>
      cases text with
      | nil => simp
      | cons b text =>
          rw [List.forall_mem_cons] at hword htext
          have hhead : f a = f b ↔ a = b := ⟨hf a hword.1 b htext.1, congrArg f⟩
          rw [List.map_cons, List.map_cons, List.isPrefixOf, Bool.and_eq_true, beq_iff_eq, hhead,
            ih hword.2 htext.2, List.cons_prefix_cons]

theorem tails_map {α β : Type} (f : α → β) (xs : List α) :
    (xs.map f).tails = xs.tails.map (List.map f) := by
  induction xs with
  | nil => rfl
  | cons x xs ih =>
      rw [List.map_cons, List.tails_cons, ih, List.tails_cons, List.map_cons, List.map_cons]

/-- A digit of an id in lower case. -/
def lowerDigit (digit : Nat) : Char := (alphabet.getD digit '0').toLower

theorem lowerDigit_inj :
    ∀ a, a < 32 → ∀ b, b < 32 → lowerDigit a = lowerDigit b → a = b := by decide

/-- A generated id in lower case. -/
theorem toList_lower_newRunId (millis : Nat) (random : Fin (2 ^ 80)) :
    (lower (newRunId millis random)).toList =
      'r' :: 'u' :: 'n' :: '_' :: (base32 (millis * 2 ^ 80 + random)).map lowerDigit := by
  have hlow : ∀ digit < 32, lowerChar (alphabet.getD digit '0') = [lowerDigit digit] := by decide
  rw [toList_lower, toList_newRunId]
  generalize millis * 2 ^ 80 + random = value
  have hdigits : ((base32 value).map fun digit => alphabet.getD digit '0').flatMap lowerChar =
      (base32 value).map lowerDigit := by
    rw [List.flatMap_map, List.map_eq_flatMap]
    exact List.flatMap_congr fun digit hdigit => hlow digit (lt_of_mem_base32 hdigit)
  simp only [List.flatMap_cons, hdigits]
  rfl

/-- A word of digits, looked for in a generated id: as no letter of `run_` begins it, it can only
lie in the digits. -/
theorem containsText_lower_newRunId {millis : Nat} {random : Fin (2 ^ 80)} {word : String}
    {first : Nat} {rest : List Nat} (hlist : word.toList = (first :: rest).map lowerDigit)
    (hlt : ∀ digit ∈ first :: rest, digit < 32)
    (hfirst : lowerDigit first ∉ ['r', 'u', 'n', '_']) :
    containsText (lower (newRunId millis random)) word = true ↔
      first :: rest <:+: base32 (millis * 2 ^ 80 + random) := by
  have hskip : ∀ (c : Char) (text : List Char), c ∈ ['r', 'u', 'n', '_'] →
      word.toList.isPrefixOf (c :: text) = false := by
    intro c text hc
    have hne : (lowerDigit first == c) = false := beq_eq_false_iff_ne.2 fun h => hfirst (h ▸ hc)
    rw [hlist, List.map_cons, List.isPrefixOf, hne, Bool.false_and]
  unfold containsText
  rw [toList_lower_newRunId]
  generalize millis * 2 ^ 80 + random = value
  simp only [List.tails_cons, List.any_cons, hskip _ _ (by decide : 'r' ∈ _),
    hskip _ _ (by decide : 'u' ∈ _), hskip _ _ (by decide : 'n' ∈ _),
    hskip _ _ (by decide : '_' ∈ _), Bool.false_or]
  rw [tails_map, List.any_map, List.any_eq_true, List.infix_iff_prefix_suffix]
  refine exists_congr fun text => ?_
  rw [List.mem_tails, Function.comp_apply, hlist, and_comm]
  refine and_congr_left fun htext => isPrefixOf_map lowerDigit_inj hlt fun digit hdigit => ?_
  exact lt_of_mem_base32 (htext.subset hdigit)

/-- The secret words that can be spelled with the digits of an id, in these digits: `SECRET` and
`TRACEBACK`. -/
def secretDigits : List (List Nat) :=
  [[25, 14, 12, 24, 14, 26], [26, 24, 10, 12, 14, 11, 10, 12, 19]]

/-- **The secret words an id can hold.** Each other word has a character that is in no id. -/
theorem hasSecretWord_newRunId (millis : Nat) (random : Fin (2 ^ 80)) :
    hasSecretWord (newRunId millis random) = true ↔
      ∃ word ∈ secretDigits, word <:+: base32 (millis * 2 ^ 80 + random) := by
  have hchars : ∀ w ∈ secretWords, w ∈ ["secret", "traceback"] ∨ (w.toList.any fun c =>
      c ∉ ['r', 'u', 'n', '_'] ++ (List.range 32).map lowerDigit) = true := by decide
  have hwords : ∀ w ∈ secretWords, w ∈ ["secret", "traceback"] ∨
      ∃ c ∈ w.toList, c ∉ (lower (newRunId millis random)).toList := by
    intro w hw
    refine (hchars w hw).imp_right fun hany => ?_
    obtain ⟨c, hc, hno⟩ := List.any_eq_true.1 hany
    refine ⟨c, hc, fun hin => of_decide_eq_true hno ?_⟩
    rw [toList_lower_newRunId] at hin
    have hsplit : c ∈ ['r', 'u', 'n', '_'] ++ (base32 (millis * 2 ^ 80 + random)).map lowerDigit :=
      hin
    rcases List.mem_append.1 hsplit with hfixed | hdigit
    · exact List.mem_append_left _ hfixed
    · obtain ⟨digit, hd, rfl⟩ := List.mem_map.1 hdigit
      exact List.mem_append_right _
        (List.mem_map_of_mem (List.mem_range.2 (lt_of_mem_base32 hd)))
  rw [hasSecretWord_eq ["secret", "traceback"] (by decide) hwords, secretDigits]
  simp only [List.any_cons, List.any_nil, Bool.or_false, Bool.or_eq_true, List.exists_mem_cons_iff,
    List.not_mem_nil, false_and, exists_false, or_false]
  exact or_congr (containsText_lower_newRunId (by decide) (by decide) (by decide))
    (containsText_lower_newRunId (by decide) (by decide) (by decide))

/-! ## Acceptance -/

/-- What the validator asks of the text of a `run_id`. -/
theorem acceptable_run_id_iff {eventType s : String} :
    Acceptable eventType "run_id" (.str s) ↔ CleanText s ∧ isRunId s = true := by
  have hpattern : idPatterns.lookup "run_id" = some isRunId := rfl
  rw [acceptable_text_iff (by decide) rfl (by decide), hpattern]
  exact Iff.rfl

/-- An id is accepted as a `run_id` exactly when it holds no secret word. -/
theorem acceptable_newRunId_iff {eventType : String} {millis : Nat} {random : Fin (2 ^ 80)} :
    Acceptable eventType "run_id" (.str (newRunId millis random)) ↔
      ∀ word ∈ secretDigits, ¬ word <:+: base32 (millis * 2 ^ 80 + random) := by
  have hne : newRunId millis random ≠ "" := by
    intro heq
    have hlist := toList_newRunId millis random
    rw [heq] at hlist
    cases hlist
  rw [acceptable_run_id_iff, CleanText, isRunId_newRunId, ← Bool.not_eq_true,
    hasSecretWord_newRunId]
  simp [hne]

/-- The field `key` is allowed in events of this type. -/
def AllowsField (eventType key : String) : Prop :=
  ∃ required optional, eventFields.lookup eventType = some (required, optional) ∧
    key ∈ required ++ optional

theorem mem_entries_erase {payload : Mapping PyVal} {key : String} {value : PyVal}
    (hvalue : payload.lookup key = some value) {e : Sigma fun _ : String => PyVal}
    (he : e ∈ payload.entries) : e = ⟨key, value⟩ ∨ e ∈ (payload.erase key).entries := by
  have hlookup : payload.lookup e.1 = some e.2 := AList.mem_lookup_iff.2 he
  by_cases hk : e.1 = key
  · left
    obtain ⟨k, v⟩ := e
    subst hk
    rw [hvalue] at hlookup
    cases hlookup
    rfl
  · right
    exact AList.mem_lookup_iff.1 ((AList.lookup_erase_ne hk).trans hlookup)

/-- A payload is accepted when its value for an allowed field passes and the rest of it is
accepted. -/
theorem accepted_erase_iff {eventType key : String} {payload : Mapping PyVal} {value : PyVal}
    (hkind : AllowsField eventType key) (hd : eventType ≠ "agent.dispatched")
    (hvalue : payload.lookup key = some value) (hne : value ≠ .none)
    (hrest : Accepted eventType (payload.erase key)) :
    Accepted eventType payload ↔ Acceptable eventType key value := by
  obtain ⟨required, optional, hf, hmem⟩ := hkind
  have hback : ∀ e ∈ (payload.erase key).entries, e ∈ payload.entries := fun e he =>
    (List.kerase_sublist _ _).subset he
  rw [accepted_iff hf hd] at hrest ⊢
  obtain ⟨hkeys, hvals, hreq⟩ := hrest
  constructor
  · intro ⟨_, hall, _⟩
    exact hall ⟨key, value⟩ (AList.mem_lookup_iff.1 hvalue) hne
  · intro hok
    refine ⟨fun k hk => ?_, fun e he hn => ?_, fun k hk => ?_⟩
    · obtain ⟨e, he, rfl⟩ := List.mem_map.1 hk
      rcases mem_entries_erase hvalue he with rfl | he
      · exact hmem
      · exact hkeys _ (List.mem_map_of_mem he)
    · rcases mem_entries_erase hvalue he with rfl | he
      · exact hok
      · exact hvals e he hn
    · obtain ⟨e, he, rfl⟩ := List.mem_map.1 (hreq k hk)
      rw [entries_withoutNone, List.mem_filter] at he
      exact List.mem_map_of_mem (List.mem_filter.2 ⟨hback e he.1, he.2⟩)

theorem not_dispatched_of_allows {eventType key : String} (h : AllowsField eventType key)
    (hkey : key ∉ ["kanban_task_id", "dispatch_backend", "status", "assignee"]) :
    eventType ≠ "agent.dispatched" := by
  rintro rfl
  obtain ⟨required, optional, hf, hmem⟩ := h
  have hfields : eventFields.lookup "agent.dispatched" =
      some ([], ["kanban_task_id", "dispatch_backend", "status", "assignee"]) := by decide
  rw [hfields] at hf
  cases hf
  exact hkey hmem

/-- **When a generated id is accepted.** In a payload whose other fields are valid, the `run_id`
built from a clock and 80 random bits is accepted exactly when its digits spell no secret word. -/
theorem run_id_accepted_iff {eventType : String} {payload : Mapping PyVal} (millis : Nat)
    (random : Fin (2 ^ 80)) (hkind : AllowsField eventType "run_id")
    (hid : payload.lookup "run_id" = some (.str (newRunId millis random)))
    (hrest : Accepted eventType (payload.erase "run_id")) :
    Accepted eventType payload ↔
      ∀ word ∈ secretDigits, ¬ word <:+: base32 (millis * 2 ^ 80 + random) := by
  rw [accepted_erase_iff hkind (not_dispatched_of_allows hkind (by decide)) hid (by simp)
    hrest]
  exact acceptable_newRunId_iff

/-- The payload of a dispatched card. -/
def dispatchedPayload (millis : Nat) (random : Fin (2 ^ 80)) : Mapping PyVal :=
  .mk [⟨"kanban_task_id", .str "t_1"⟩, ⟨"status", .str "todo"⟩,
    ⟨"run_id", .str (newRunId millis random)⟩]

theorem dispatched_allows_run_id : AllowsField "kanban.dispatched" "run_id" :=
  ⟨_, _, rfl, by decide⟩

/-- An id of zeros is accepted. -/
theorem run_id_accepted_zero : Accepted "kanban.dispatched" (dispatchedPayload 0 0) :=
  (run_id_accepted_iff 0 0 dispatched_allows_run_id (by decide) (by decide)).2 (by decide)

/-- The random bits of an id that ends in `SECRET`. -/
def secretRandom : Fin (2 ^ 80) :=
  25 * 32 ^ 5 + 14 * 32 ^ 4 + 12 * 32 ^ 3 + 24 * 32 ^ 2 + 14 * 32 + 26

/-- Not every generated id is accepted. -/
theorem run_id_rejected :
    ¬ ∀ (eventType : String) (payload : Mapping PyVal) (millis : Nat) (random : Fin (2 ^ 80)),
      millis < 2 ^ 48 → AllowsField eventType "run_id" →
      payload.lookup "run_id" = some (.str (newRunId millis random)) →
      Accepted eventType (payload.erase "run_id") → Accepted eventType payload := by
  intro h
  have hrejected :
      ¬ Accepted "kanban.dispatched" (dispatchedPayload 1786000000000 secretRandom) := by decide
  exact hrejected (h _ _ 1786000000000 secretRandom (by decide) dispatched_allows_run_id
    (by decide) (by decide))

end HermesRuntime
