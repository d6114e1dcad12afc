import HermesRuntime.Preflight
import HermesRuntime.TickBound

/-!
# What an operator writes

The settings of a tick are texts: an env file with the secrets, and the bound as a variable of the
environment. Written as one would write them, they are read as they are meant.

* `parseLine_entry` — a line of an env file is read back.
* `loadEnv_envText` — so is a file, where the last line of a key counts.
* `secrets_as_written` — the clients of a tick get the secrets of the file.
* `digitRun_eq_some_iff` — the digits `int` reads are those of its grammar.
* `bound_setting_iff` — which settings are a bound, and which one.
-/

namespace HermesRuntime

/-! ## Stripping -/

section Strip

variable {p : Char → Bool} {l : List Char}

theorem strip_eq_self (hhead : ∀ c, l.head? = some c → p c = false)
    (hlast : ∀ c, l.getLast? = some c → p c = false) : strip p l = l := by
  have hdrop : l.dropWhile p = l := by
    cases l with
    | nil => rfl
    | cons c l => simp [hhead c rfl]
  unfold strip
  rw [hdrop, List.rdropWhile_eq_self_iff]
  intro hne
  simp [hlast _ (List.getLast?_eq_some_getLast hne)]

theorem strip_eq_nil (h : ∀ c ∈ l, p c = true) : strip p l = [] := by
  have hdrop : l.dropWhile p = [] := List.dropWhile_eq_nil_iff.2 h
  simp [strip, hdrop]

/-- What does not begin with a stripped character keeps its head, if anything is left. -/
theorem head?_strip {c : Char} (hc : p c = false) :
    strip p (c :: l) = [] ∨ (strip p (c :: l)).head? = some c := by
  have hdrop : (c :: l).dropWhile p = c :: l := by simp [hc]
  unfold strip
  rw [hdrop]
  obtain ⟨rest, hrest⟩ := List.rdropWhile_prefix p (c :: l)
  cases hkept : (c :: l).rdropWhile p with
  | nil => exact Or.inl rfl
  | cons d kept =>
      rw [hkept, List.cons_append] at hrest
      exact Or.inr (by rw [(List.cons.inj hrest).1]; rfl)

end Strip

/-! ## Lines -/

/-- The text has none of the characters at its ends. -/
def Trimmed (p : Char → Bool) (text : String) : Prop :=
  text.toList.head?.any p = false ∧ text.toList.getLast?.any p = false

instance (p : Char → Bool) (text : String) : Decidable (Trimmed p text) :=
  inferInstanceAs (Decidable (_ = false ∧ _ = false))

section Trimmed

variable {p : Char → Bool} {text : String}

theorem Trimmed.head (h : Trimmed p text) {c : Char} (hc : text.toList.head? = some c) :
    p c = false := by
  simpa [hc] using h.1

theorem Trimmed.last (h : Trimmed p text) {c : Char} (hc : text.toList.getLast? = some c) :
    p c = false := by
  simpa [hc] using h.2

theorem Trimmed.strip (h : Trimmed p text) : strip p text.toList = text.toList :=
  strip_eq_self (fun _ hc => h.head hc) fun _ hc => h.last hc

end Trimmed

/-- A line of an env file. -/
inductive EnvLine where
  | entry (key value : String)
  | comment (text : String)
  | blank (spaces : String)

/-- The line as it is written. -/
def EnvLine.text : EnvLine → List Char
  | .entry key value => key.toList ++ '=' :: value.toList
  | .comment text => '#' :: text.toList
  | .blank spaces => spaces.toList

/-- What the line sets. -/
def EnvLine.setting : EnvLine → Option (String × String)
  | .entry key value => some (key, value)
  | .comment _ | .blank _ => none

/-- A key and a value that can be written as they are. -/
structure PlainEntry (key value : String) : Prop where
  key_ne : key ≠ ""
  no_assign : '=' ∉ key.toList
  no_comment : key.toList.head? ≠ some '#'
  key_trimmed : Trimmed isSpace key
  value_trimmed : Trimmed isSpace value
  no_quotes : Trimmed (· = '\x22') value
  no_apostrophes : Trimmed (· = '\x27') value
  no_null : '\x00' ∉ key.toList ∧ '\x00' ∉ value.toList

instance (key value : String) : Decidable (PlainEntry key value) :=
  decidable_of_iff (key ≠ "" ∧ '=' ∉ key.toList ∧ key.toList.head? ≠ some '#' ∧
      Trimmed isSpace key ∧ Trimmed isSpace value ∧ Trimmed (· = '\x22') value ∧
      Trimmed (· = '\x27') value ∧ '\x00' ∉ key.toList ∧ '\x00' ∉ value.toList)
    ⟨fun h => ⟨h.1, h.2.1, h.2.2.1, h.2.2.2.1, h.2.2.2.2.1, h.2.2.2.2.2.1, h.2.2.2.2.2.2.1,
        h.2.2.2.2.2.2.2⟩,
      fun h => ⟨h.key_ne, h.no_assign, h.no_comment, h.key_trimmed, h.value_trimmed, h.no_quotes,
        h.no_apostrophes, h.no_null⟩⟩

/-- A line that can be written as it is. -/
def EnvLine.Plain : EnvLine → Prop
  | .entry key value => (EnvLine.entry key value).text.any isLineBreak = false ∧
      PlainEntry key value
  | .comment text => (EnvLine.comment text).text.any isLineBreak = false
  | .blank spaces => (EnvLine.blank spaces).text.any isLineBreak = false ∧
      spaces.toList.all isSpace = true

instance : (line : EnvLine) → Decidable line.Plain
  | .entry _ _ => inferInstanceAs (Decidable (_ = false ∧ PlainEntry _ _))
  | .comment _ => inferInstanceAs (Decidable (_ = false))
  | .blank _ => inferInstanceAs (Decidable (_ = false ∧ _ = true))

theorem EnvLine.Plain.no_break {line : EnvLine} (h : line.Plain) :
    ∀ c ∈ line.text, isLineBreak c = false := by
  have hany : line.text.any isLineBreak = false := by
    cases line with
    | entry key value => exact h.1
    | comment text => exact h
    | blank spaces => exact h.1
  intro c hc
  simpa using List.any_eq_false.1 hany c hc

/-- **A line is read back.** -/
theorem parseLine_entry {key value : String} (h : PlainEntry key value) :
    parseLine (EnvLine.entry key value).text = some (key, value) := by
  have hline : strip isSpace (key.toList ++ '=' :: value.toList) =
      key.toList ++ '=' :: value.toList := by
    refine strip_eq_self (fun c hc => ?_) fun c hc => ?_
    · cases hkey : key.toList with
      | nil =>
          rw [hkey] at hc
          cases hc
          rfl
      | cons d rest =>
          rw [hkey] at hc
          exact h.key_trimmed.head (by rw [hkey]; exact hc)
    · rw [List.getLast?_append_cons, List.getLast?_cons] at hc
      cases hlast : value.toList.getLast? with
      | none =>
          rw [hlast] at hc
          cases hc
          rfl
      | some d =>
          rw [hlast] at hc
          exact h.value_trimmed.last (by rw [hlast]; exact hc)
  have hne : ∀ c ∈ key.toList, decide (c ≠ '=') = true := by
    intro c hc
    refine decide_eq_true ?_
    rintro rfl
    exact h.no_assign hc
  have hkey : (key.toList ++ '=' :: value.toList).takeWhile (· ≠ '=') = key.toList := by
    rw [List.takeWhile_append_of_pos hne]
    simp
  have hvalue : (key.toList ++ '=' :: value.toList).dropWhile (· ≠ '=') = '=' :: value.toList := by
    rw [List.dropWhile_append_of_pos hne]
    simp
  have hhead : (key.toList ++ '=' :: value.toList).head? ≠ some '#' := by
    cases htext : key.toList with
    | nil => simp
    | cons d rest =>
        have hd := h.no_comment
        rw [htext] at hd
        exact hd
  have hkept : ¬ (key.toList ++ '=' :: value.toList = [] ||
      (key.toList ++ '=' :: value.toList).head? = some '#' ||
        '=' ∉ key.toList ++ '=' :: value.toList) = true := by
    simp only [Bool.or_eq_true, decide_eq_true_eq, not_or, not_not]
    exact ⟨⟨by simp, hhead⟩, by simp⟩
  unfold parseLine EnvLine.text
  dsimp only
  rw [hline, if_neg hkept, hkey, hvalue, List.tail_cons, h.key_trimmed.strip,
    h.value_trimmed.strip, h.no_quotes.strip, h.no_apostrophes.strip, String.ofList_toList,
    String.ofList_toList]

/-- So every plain line sets what it says. -/
theorem parseLine_text {line : EnvLine} (h : line.Plain) : parseLine line.text = line.setting := by
  cases line with
  | entry key value => exact parseLine_entry h.2
  | comment text =>
      have hhead := @head?_strip isSpace text.toList '#' rfl
      unfold parseLine EnvLine.text EnvLine.setting
      dsimp only
      rw [if_pos]
      rcases hhead with hnil | hhead
      · simp [hnil]
      · simp [hhead]
  | blank spaces =>
      have hnil := strip_eq_nil (List.all_eq_true.1 h.2)
      unfold parseLine EnvLine.text EnvLine.setting
      dsimp only
      rw [if_pos (by simp [hnil])]

/-! ## Env files -/

/-- The text of a file with these lines. -/
def envText (lines : List EnvLine) : String :=
  String.ofList (lines.flatMap fun line => line.text ++ ['\n'])

/-- The value the last line of a key gives it. -/
def lastValue (lines : List EnvLine) (key : String) : Option String :=
  (lines.filterMap EnvLine.setting).reverse.lookup key

theorem splitlines_append {line : List Char} (h : ∀ c ∈ line, isLineBreak c = false)
    (rest : List Char) : splitlines (line ++ '\n' :: rest) = line :: splitlines rest := by
  induction line with
  | nil => rfl
  | cons c line ih =>
      have hc : isLineBreak c = false := h c List.mem_cons_self
      have hrest := ih fun d hd => h d (List.mem_cons_of_mem _ hd)
      rw [List.cons_append, splitlines, if_neg (by simp [hc]), hrest]

/-- The lines of a file are those it was written from. -/
theorem splitlines_envText {lines : List EnvLine} (h : ∀ line ∈ lines, line.Plain) :
    splitlines (lines.flatMap fun line => line.text ++ ['\n']) = lines.map EnvLine.text := by
  induction lines with
  | nil => rfl
  | cons line lines ih =>
      have hrest := ih fun line' hline => h line' (List.mem_cons_of_mem _ hline)
      rw [List.flatMap_cons, List.append_assoc, List.singleton_append,
        splitlines_append (h line List.mem_cons_self).no_break, hrest, List.map_cons]

theorem universalNewlines_eq_self {text : List Char} (h : '\r' ∉ text) :
    universalNewlines false text = text := by
  induction text with
  | nil => rfl
  | cons c text ih =>
      have hc : c ≠ '\r' := fun heq => h (heq ▸ List.mem_cons_self)
      have hrest := ih fun hmem => h (List.mem_cons_of_mem _ hmem)
      unfold universalNewlines
      rw [if_neg hc, hrest]
      simp

theorem readText_envText {files : Files} {path : String} {lines : List EnvLine}
    (h : ∀ line ∈ lines, line.Plain) (hfile : files path = .ok (envText lines)) :
    readText files path = .ok (lines.flatMap fun line => line.text ++ ['\n']) := by
  have hreturn : '\r' ∉ lines.flatMap fun line => line.text ++ ['\n'] := by
    intro hmem
    obtain ⟨line, hline, hmem⟩ := List.mem_flatMap.1 hmem
    rcases List.mem_append.1 hmem with hmem | hmem
    · exact absurd ((h line hline).no_break _ hmem) (by decide)
    · exact absurd (List.mem_singleton.1 hmem) (by decide)
  unfold readText
  rw [hfile]
  show Except.ok (universalNewlines false (envText lines).toList) = _
  rw [envText, String.toList_ofList, universalNewlines_eq_self hreturn]

/-- What is set later counts. -/
theorem lookup_foldl_set (settings : List (String × String)) (m : Mapping String)
    (key : String) : (settings.foldl (fun m e => m.set e.1 e.2) m).lookup key =
      (settings.reverse.lookup key).or (m.lookup key) := by
  induction settings generalizing m with
  | nil => simp
  | cons e settings ih =>
      rw [List.foldl_cons, ih, Mapping.lookup_set, List.reverse_cons, List.lookup_append,
        Option.or_assoc]
      congr 1
      obtain ⟨k, value⟩ := e
      by_cases hkey : key = k
      · simp [hkey]
      · simp [hkey]

/-- Reading the lines one by one sets what they say. -/
theorem foldl_parseLine {f : Mapping String → List Char → Mapping String}
    (hf : ∀ out raw, f out raw = (parseLine raw).elim out fun e => out.set e.1 e.2)
    {lines : List EnvLine} (h : ∀ line ∈ lines, line.Plain) (m : Mapping String) :
    (lines.map EnvLine.text).foldl f m =
      (lines.filterMap EnvLine.setting).foldl (fun m e => m.set e.1 e.2) m := by
  induction lines generalizing m with
  | nil => rfl
  | cons line lines ih =>
      have hrest := fun m => ih (fun line' hmem => h line' (List.mem_cons_of_mem _ hmem)) m
      rw [List.map_cons, List.foldl_cons, hf, parseLine_text (h line List.mem_cons_self), hrest]
      cases hsetting : line.setting with
      | none => rw [List.filterMap_cons_none hsetting, Option.elim_none]
      | some e => rw [List.filterMap_cons_some hsetting, Option.elim_some, List.foldl_cons]

/-- **A file is read back**: every key has the value its last line gives it. -/
theorem loadEnv_envText {files : Files} {path : String} {lines : List EnvLine}
    (h : ∀ line ∈ lines, line.Plain) (hfile : files path = .ok (envText lines)) :
    ∃ own, loadEnv files path = .ok own ∧ ∀ key, own.lookup key = lastValue lines key := by
  unfold loadEnv
  rw [readText_envText h hfile]
  refine ⟨_, rfl, fun key => ?_⟩
  rw [splitlines_envText h, foldl_parseLine ?_ h, lookup_foldl_set, AList.lookup_empty,
    Option.or_none]
  · rfl
  · intro out raw
    cases parseLine raw with
    | none => rfl
    | some e => rfl

/-! ## The secrets -/

/-- The secrets in a file, if it has them all. -/
def secretsOf (lines : List EnvLine) : Option TickSecrets := do
  let linearKey ← truthy (lastValue lines "LINEAR_API_KEY")
  let supabaseUrl ← truthy (lastValue lines "SUPABASE_URL")
  let serviceKey ← truthy (lastValue lines "SUPABASE_SERVICE_ROLE_KEY")
  pure ⟨linearKey, supabaseUrl, serviceKey⟩

theorem mem_of_lastValue {lines : List EnvLine} {key value : String}
    (h : lastValue lines key = some value) : EnvLine.entry key value ∈ lines := by
  obtain ⟨before, after, hlist, -⟩ := List.lookup_eq_some_iff.1 h
  have hmem : (key, value) ∈ lines.filterMap EnvLine.setting := by
    rw [← List.mem_reverse, hlist]
    simp
  obtain ⟨line, hline, hsetting⟩ := List.mem_filterMap.1 hmem
  cases line with
  | entry key' value' =>
      cases hsetting
      exact hline
  | comment text => cases hsetting
  | blank spaces => cases hsetting

/-- What can be written as it is can be exported. -/
theorem putenv_plain {key value : String} (h : PlainEntry key value) :
    putenv key value = .ok () := by
  unfold putenv
  rw [if_neg (by simpa using h.no_null), if_neg h.no_assign, if_neg h.key_ne]

theorem foldlM_setdefault_ok {entries : List (Sigma fun _ : String => String)}
    (h : ∀ e ∈ entries, putenv e.1 e.2 = .ok ()) (environ : Mapping String) :
    ∃ environ', entries.foldlM (fun environ e => setdefault environ e.1 e.2) environ =
      .ok environ' := by
  induction entries generalizing environ with
  | nil => exact ⟨environ, rfl⟩
  | cons e entries ih =>
      have hrest := ih fun e' he => h e' (List.mem_cons_of_mem _ he)
      have hset : ∃ next, setdefault environ e.1 e.2 = .ok next := by
        unfold setdefault
        by_cases hin : e.1 ∈ environ.keys
        · rw [if_pos hin]
          exact ⟨environ, rfl⟩
        · rw [if_neg hin, h e List.mem_cons_self]
          exact ⟨_, rfl⟩
      obtain ⟨next, hnext⟩ := hset
      obtain ⟨environ', henviron⟩ := hrest next
      rw [List.foldlM_cons, hnext]
      exact ⟨environ', henviron⟩

/-- **The secrets are those of the file.** From a shared env file of plain lines, in an
environment that sets none of the required keys, a tick gets the secrets as they are written, or
stops in its preflight where one is missing or empty. -/
theorem secrets_as_written {files : Files} {environ : Mapping String} {lines : List EnvLine}
    (hplain : ∀ line ∈ lines, line.Plain) (hfile : files sharedEnv = .ok (envText lines))
    (hpath : envFilePath environ = sharedEnv)
    (hset : ∀ key ∈ requiredKeys, environ.lookup key = none) :
    tickSecrets files environ = .ok (secretsOf lines) := by
  obtain ⟨own, hown, hlookup⟩ := loadEnv_envText hplain hfile
  have hseen : preflightEnv files environ = .ok (own.update environ) := by
    unfold preflightEnv
    rw [hpath, hown]
    rfl
  have hmissing : missingRequired files environ =
      .ok (requiredKeys.filter fun key => (truthy (lastValue lines key)).isNone) := by
    unfold missingRequired
    rw [hseen]
    refine congrArg Except.ok (List.filter_congr fun key hkey => ?_)
    rw [Mapping.lookup_update, hset key hkey, Option.none_or, hlookup]
  by_cases hnil : (requiredKeys.filter fun key => (truthy (lastValue lines key)).isNone) = []
  · rw [hnil] at hmissing
    have hfound : ∀ key ∈ requiredKeys, ∃ value, truthy (lastValue lines key) = some value := by
      intro key hkey
      have hsome := List.filter_eq_nil_iff.1 hnil key hkey
      rw [Option.isNone_iff_eq_none, ← ne_eq, Option.ne_none_iff_exists'] at hsome
      exact hsome
    obtain ⟨linear, hlinear⟩ := hfound "LINEAR_API_KEY" (by decide)
    obtain ⟨url, hurl⟩ := hfound "SUPABASE_URL" (by decide)
    obtain ⟨serviceKey, hservice⟩ := hfound "SUPABASE_SERVICE_ROLE_KEY" (by decide)
    obtain ⟨environ', hexport⟩ : ∃ environ', exportIntoEnviron files environ = .ok environ' := by
      unfold exportIntoEnviron
      rw [hpath, hown]
      refine foldlM_setdefault_ok (fun e he => ?_) environ
      have hentry := mem_of_lastValue ((hlookup e.1).symm.trans (AList.mem_lookup_iff.2 he))
      exact putenv_plain (hplain _ hentry).2
    have hget : ∀ key ∈ requiredKeys, ∀ value, truthy (lastValue lines key) = some value →
        environ'.lookup key = some value := by
      intro key hkey value hvalue
      rw [lookup_exportIntoEnviron hseen hexport, Mapping.lookup_update, hset key hkey,
        Option.none_or, hlookup]
      exact (Option.filter_eq_some_iff.1 hvalue).1
    have hstore : fromEnvironment environ' = .ok (url, serviceKey) := by
      unfold fromEnvironment
      rw [getItem_eq_ok_iff.2 (hget _ (by decide) url hurl),
        getItem_eq_ok_iff.2 (hget _ (by decide) serviceKey hservice)]
      rfl
    have hclient : linearKey files = .ok linear := by
      unfold linearKey
      rw [hown]
      refine getItem_eq_ok_iff.2 ?_
      rw [hlookup]
      exact (Option.filter_eq_some_iff.1 hlinear).1
    rw [tickSecrets_eq hmissing hexport hstore, hclient, secretsOf, hlinear, hurl, hservice]
    rfl
  · have hnone : secretsOf lines = none := by
      obtain ⟨key, hkey⟩ := List.exists_mem_of_ne_nil _ hnil
      obtain ⟨hkey, htruthy⟩ := List.mem_filter.1 hkey
      rw [Option.isNone_iff_eq_none] at htruthy
      unfold secretsOf
      simp only [requiredKeys, List.mem_cons, List.not_mem_nil, or_false] at hkey
      rcases hkey with rfl | rfl | rfl
      · cases truthy (lastValue lines "LINEAR_API_KEY") with
        | none => rfl
        | some linear => simp [htruthy]
      · cases truthy (lastValue lines "LINEAR_API_KEY") with
        | none => rfl
        | some linear =>
            cases truthy (lastValue lines "SUPABASE_URL") with
            | none => rfl
            | some url => simp [htruthy]
      · simp [htruthy]
    unfold tickSecrets
    rw [hmissing, hnone]
    exact if_pos hnil

/-- A file that gives one key twice. -/
def writtenLines : List EnvLine :=
  [.comment " store", .entry "SUPABASE_URL" "https://old", .entry "SUPABASE_URL" "https://db",
    .blank " ", .entry "SUPABASE_SERVICE_ROLE_KEY" "a=b", .entry "LINEAR_API_KEY" "lin"]

theorem secrets_as_written_twice :
    tickSecrets (fun _ => .ok (envText writtenLines)) ∅ = .ok (some ⟨"lin", "https://db", "a=b"⟩) :=
  @secrets_as_written _ _ writtenLines (by decide) rfl rfl fun key _ => AList.lookup_empty key

/-! ## The bound -/

/-- A numeral without a sign, with its digits: underscores stand between two of them. -/
inductive Numeral : List Char → List ℕ → Prop
  | last {c : Char} {digit : ℕ} (h : decimalDigit c = some digit) : Numeral [c] [digit]
  | next {c : Char} {digit : ℕ} {text : List Char} {digits : List ℕ}
      (h : decimalDigit c = some digit) (hrest : Numeral text digits) :
      Numeral (c :: text) (digit :: digits)
  | under {c : Char} {digit : ℕ} {text : List Char} {digits : List ℕ}
      (h : decimalDigit c = some digit) (hrest : Numeral text digits) :
      Numeral (c :: '_' :: text) (digit :: digits)

theorem decimalDigit_underscore : decimalDigit '_' = none := by decide

theorem decimalDigit_of_numeral {c : Char} {text : List Char} {digits : List ℕ}
    (h : Numeral (c :: text) digits) : ∃ digit, decimalDigit c = some digit := by
  cases h with
  | last hc => exact ⟨_, hc⟩
  | next hc _ => exact ⟨_, hc⟩
  | under hc _ => exact ⟨_, hc⟩

/-- What may follow a digit. -/
def Continues (text : List Char) (digits : List ℕ) : Prop :=
  (text = [] ∧ digits = []) ∨ Numeral text digits ∨
    ∃ rest, text = '_' :: rest ∧ Numeral rest digits

/-- A numeral is a digit and what follows it. -/
theorem numeral_cons_iff {c : Char} {digit : ℕ} {text : List Char} {digits : List ℕ}
    (hc : decimalDigit c = some digit) :
    Numeral (c :: text) digits ↔ ∃ rest, digits = digit :: rest ∧ Continues text rest := by
  constructor
  · intro h
    cases h with
    | last h =>
        rw [hc] at h
        cases h
        exact ⟨[], rfl, Or.inl ⟨rfl, rfl⟩⟩
    | next h hrest =>
        rw [hc] at h
        cases h
        exact ⟨_, rfl, Or.inr (Or.inl hrest)⟩
    | under h hrest =>
        rw [hc] at h
        cases h
        exact ⟨_, rfl, Or.inr (Or.inr ⟨_, rfl, hrest⟩)⟩
  · rintro ⟨rest, rfl, ⟨rfl, rfl⟩ | hrest | ⟨tail, rfl, hrest⟩⟩
    · exact .last hc
    · exact .next hc hrest
    · exact .under hc hrest

theorem digitRun_iff (text : List Char) : ∀ digits,
    (digitRun false text = some digits ↔ Numeral text digits) ∧
      (digitRun true text = some digits ↔ Continues text digits) := by
  induction text with
  | nil =>
      intro digits
      have hnone : ¬ Numeral [] digits := by
        intro h
        cases h
      constructor
      · simp [digitRun, hnone]
      · simp [digitRun, Continues, hnone, eq_comm]
  | cons c text ih =>
      intro digits
      -- From a digit on, the rest follows it.
      have hdigit : digitRun false (c :: text) = some digits ↔ Numeral (c :: text) digits := by
        cases hc : decimalDigit c with
        | none =>
            refine iff_of_false (by simp [digitRun, hc]) fun h => ?_
            obtain ⟨digit, hdigit⟩ := decimalDigit_of_numeral h
            rw [hc] at hdigit
            cases hdigit
        | some digit =>
            have hrun : digitRun false (c :: text) = (digitRun true text).map (digit :: ·) := by
              simp [digitRun, hc]
            rw [hrun, numeral_cons_iff hc]
            simp only [Option.map_eq_some_iff, (ih _).2]
            constructor
            · rintro ⟨rest, hrest, rfl⟩
              exact ⟨rest, rfl, hrest⟩
            · rintro ⟨rest, rfl, hrest⟩
              exact ⟨rest, hrest, rfl⟩
      refine ⟨hdigit, ?_⟩
      by_cases hc : c = '_'
      · have hnone : ¬ Numeral (c :: text) digits := by
          intro h
          obtain ⟨digit, hdigit⟩ := decimalDigit_of_numeral h
          rw [hc, decimalDigit_underscore] at hdigit
          cases hdigit
        have hrun : digitRun true (c :: text) = digitRun false text := by simp [digitRun, hc]
        rw [hrun, (ih digits).1]
        subst hc
        simp [Continues, hnone]
      · have hrun : digitRun true (c :: text) = digitRun false (c :: text) := by
          simp [digitRun, hc]
        have hcontinues : Continues (c :: text) digits ↔ Numeral (c :: text) digits := by
          simp [Continues, hc]
        rw [hrun, hcontinues]
        exact hdigit

/-- **The digits `int` reads are those of a numeral.** -/
theorem digitRun_eq_some_iff {text : List Char} {digits : List ℕ} :
    digitRun false text = some digits ↔ Numeral text digits := (digitRun_iff text digits).1

theorem parseNat_eq_some_iff {text : List Char} {n : ℕ} : parseNat text = some n ↔
    ∃ digits, Numeral text digits ∧ digits.length ≤ maxStrDigits ∧ n = numberOf digits := by
  unfold parseNat
  simp only [← digitRun_eq_some_iff]
  cases digitRun false text with
  | none => simp
  | some digits =>
      by_cases hlong : maxStrDigits < digits.length
      · simp [hlong]
      · simp [hlong, Nat.le_of_not_lt hlong, eq_comm]

/-- A text that is a numeral, with or without a plus sign. -/
def Signless (text : List Char) (digits : List ℕ) : Prop :=
  Numeral text digits ∨ ∃ body, text = '+' :: body ∧ Numeral body digits

theorem decimalDigit_sign : decimalDigit '+' = none ∧ decimalDigit '-' = none := by decide

theorem numeral_head_ne {c d : Char} {text : List Char} {digits : List ℕ}
    (hd : decimalDigit d = none) (h : Numeral (c :: text) digits) : c ≠ d := by
  rintro rfl
  obtain ⟨digit, hdigit⟩ := decimalDigit_of_numeral h
  rw [hd] at hdigit
  cases hdigit

theorem map_parseNat_eq_some_iff {text : List Char} {n : ℤ} :
    ((parseNat text).map fun m => (m : ℤ)) = some n ↔
      ∃ digits, Numeral text digits ∧ digits.length ≤ maxStrDigits ∧ n = numberOf digits := by
  have hcast : ((parseNat text).map fun m => (m : ℤ)) = some n ↔
      ∃ m : ℕ, parseNat text = some m ∧ (m : ℤ) = n := by
    cases parseNat text <;> simp
  rw [hcast]
  constructor
  · rintro ⟨m, hm, rfl⟩
    obtain ⟨digits, hdigits, hlength, rfl⟩ := parseNat_eq_some_iff.1 hm
    exact ⟨digits, hdigits, hlength, rfl⟩
  · rintro ⟨digits, hdigits, hlength, rfl⟩
    exact ⟨_, parseNat_eq_some_iff.2 ⟨digits, hdigits, hlength, rfl⟩, rfl⟩

/-- The positive numbers `int` reads; a text with a minus sign is none of them. -/
theorem parseInt_eq_some_iff {text : List Char} {n : ℤ} (hn : 1 ≤ n) : parseInt text = some n ↔
    ∃ digits, Signless text digits ∧ digits.length ≤ maxStrDigits ∧ n = numberOf digits := by
  have hplus := fun body digits (h : Numeral ('+' :: body) digits) =>
    numeral_head_ne decimalDigit_sign.1 h rfl
  unfold parseInt
  split
  case h_1 body =>
    have hsign : ∀ digits, Signless ('+' :: body) digits ↔ Numeral body digits := by
      intro digits
      constructor
      · rintro (h | ⟨body', hbody, h⟩)
        · exact absurd h (hplus body digits)
        · cases hbody
          exact h
      · exact fun h => Or.inr ⟨body, rfl, h⟩
    simp only [map_parseNat_eq_some_iff, hsign]
  case h_2 body =>
    refine iff_of_false ?_ ?_
    · cases parseNat body with
      | none => simp
      | some m => simp; omega
    · rintro ⟨digits, h | ⟨body', hbody, -⟩, -⟩
      · exact numeral_head_ne decimalDigit_sign.2 h rfl
      · simp at hbody
  case h_3 hno hminus =>
    have hsign : ∀ digits, Signless text digits ↔ Numeral text digits := by
      intro digits
      constructor
      · rintro (h | ⟨body, hbody, -⟩)
        · exact h
        · exact absurd hbody (hno body)
      · exact Or.inl
    simp only [map_parseNat_eq_some_iff, hsign]

/-- The setting is a bound: a numeral `int` reads, of a number that is not zero. -/
def BoundWritten (environ : Mapping String) (n : ℤ) : Prop :=
  ∃ raw digits, environ.lookup boundEnvVar = some raw ∧ Signless (strip isSpace raw.toList) digits ∧
    digits.length ≤ maxStrDigits ∧ n = numberOf digits ∧ 1 ≤ n

/-- There is no setting, or one of nothing but white space. -/
def BoundUnset (environ : Mapping String) : Prop :=
  ∀ raw, environ.lookup boundEnvVar = some raw → ∀ c ∈ raw.toList, isSpace c = true

theorem strip_eq_nil_iff {p : Char → Bool} {l : List Char} :
    strip p l = [] ↔ ∀ c ∈ l, p c = true := by
  refine ⟨fun h => ?_, strip_eq_nil⟩
  unfold strip at h
  rw [List.rdropWhile_eq_nil_iff] at h
  cases hkept : l.dropWhile p with
  | nil => exact List.dropWhile_eq_nil_iff.1 hkept
  | cons c kept =>
      have hc := h c (by simp [hkept])
      have hnot := List.head_dropWhile_not p (l := l) (by simp [hkept])
      simp [hkept, hc] at hnot

theorem not_signless_nil {digits : List ℕ} : ¬ Signless [] digits := by
  rintro (h | ⟨body, hbody, -⟩)
  · cases h
  · cases hbody

theorem maxDispatchPerTick_ok_iff {environ : Mapping String} {n : ℤ} :
    maxDispatchPerTick environ = .ok n ↔
      BoundUnset environ ∧ n = 1 ∨ BoundWritten environ n := by
  unfold maxDispatchPerTick BoundUnset BoundWritten
  cases environ.lookup boundEnvVar with
  | none =>
      simp only [reduceCtorEq, false_implies, implies_true, true_and, false_and, exists_false,
        or_false, defaultMaxDispatchPerTick, Except.ok.injEq]
      exact eq_comm
  | some raw =>
      dsimp only
      by_cases hblank : strip isSpace raw.toList = []
      · have hspace := strip_eq_nil_iff.1 hblank
        simp only [hblank, if_true, defaultMaxDispatchPerTick, Option.some.injEq]
        constructor
        · rintro ⟨⟩
          exact Or.inl ⟨fun _ h => h ▸ hspace, rfl⟩
        · rintro (⟨-, rfl⟩ | ⟨_, digits, rfl, hdigits, -⟩)
          · rfl
          · rw [hblank] at hdigits
            exact absurd hdigits not_signless_nil
      · rw [if_neg hblank]
        have hset : ¬ ∀ raw', some raw = some raw' → ∀ c ∈ raw'.toList, isSpace c = true :=
          fun h => hblank (strip_eq_nil_iff.2 (h raw rfl))
        have hread : (∃ raw' digits, some raw = some raw' ∧
            Signless (strip isSpace raw'.toList) digits ∧ digits.length ≤ maxStrDigits ∧
              n = numberOf digits ∧ 1 ≤ n) ↔
            parseInt (strip isSpace raw.toList) = some n ∧ 1 ≤ n := by
          constructor
          · rintro ⟨_, digits, ⟨⟩, hdigits, hlength, hn, hone⟩
            exact ⟨(parseInt_eq_some_iff hone).2 ⟨digits, hdigits, hlength, hn⟩, hone⟩
          · rintro ⟨hparse, hone⟩
            obtain ⟨digits, hdigits, hlength, hn⟩ := (parseInt_eq_some_iff hone).1 hparse
            exact ⟨raw, digits, rfl, hdigits, hlength, hn, hone⟩
        simp only [hset, false_and, false_or, hread]
        cases parseInt (strip isSpace raw.toList) with
        | none => simp
        | some value =>
            by_cases hvalue : value < 1
            · simp [hvalue]
              omega
            · simp [hvalue]
              omega

/-- **Which settings are a bound**, and which number a tick then goes by: one that is written as a
numeral; without a setting, and with any other, it dispatches one issue. -/
theorem bound_setting_iff (environ : Mapping String) (n : ℤ) :
    (maxDispatchPerTick environ = .ok n ↔ BoundUnset environ ∧ n = 1 ∨ BoundWritten environ n) ∧
      (resolveBound environ = n ↔
        BoundWritten environ n ∨ n = 1 ∧ ∀ m, ¬ BoundWritten environ m) := by
  refine ⟨maxDispatchPerTick_ok_iff, ?_⟩
  have hwritten : ∀ m, BoundWritten environ m → maxDispatchPerTick environ = .ok m := fun m hm =>
    maxDispatchPerTick_ok_iff.2 (Or.inr hm)
  unfold resolveBound
  cases hmax : maxDispatchPerTick environ with
  | ok bound =>
      dsimp only
      constructor
      · rintro rfl
        rcases maxDispatchPerTick_ok_iff.1 hmax with ⟨hunset, rfl⟩ | hbound
        · refine Or.inr ⟨rfl, ?_⟩
          rintro m ⟨raw, digits, hraw, hdigits, -⟩
          rw [strip_eq_nil (hunset raw hraw)] at hdigits
          exact not_signless_nil hdigits
        · exact Or.inl hbound
      · rintro (hbound | ⟨rfl, hnone⟩)
        · exact Except.ok.inj (hmax.symm.trans (hwritten n hbound))
        · rcases maxDispatchPerTick_ok_iff.1 hmax with ⟨-, rfl⟩ | hbound
          · rfl
          · exact absurd hbound (hnone bound)
  | error reason =>
      have hnone : ∀ m, ¬ BoundWritten environ m := by
        intro m hm
        rw [hwritten m hm] at hmax
        cases hmax
      simp [hnone, defaultMaxDispatchPerTick, eq_comm]

end HermesRuntime
