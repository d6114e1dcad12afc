import HermesRuntime.RunIds
import Mathlib.Data.List.TakeWhile

/-!
# The URL fields

`_validate_https_url` looks at the parts `urlsplit` returns, while the payload keeps the string.
What the split raises is not caught, user information and an empty host are not looked for, and
an empty query or fragment looks like none.

* `mem_delimiter_iff` — where no query and no fragment is returned, the string still has a `?` or
  a `#` when it ends in one.
* `validateValue_url` — the checks of a URL field.
* `urlSafe_iff` — for which strings the outcome is safe.
-/

namespace HermesRuntime

/-! ## What the split keeps -/

/-- The URL as `urlsplit` reads it: leading control characters and blanks are dropped, tabs and
newlines removed. -/
def cleanUrl (url : String) : List Char :=
  (url.toList.dropWhile (·.toNat ≤ 32)).filter fun c => c ≠ '\t' && c ≠ '\r' && c ≠ '\n'

/-- `hostname` of the split's result: what follows the last `@`, up to the port. -/
def hostOf (netloc : List Char) : List Char :=
  let (_, bracket, bracketed) := partitionAt '[' (hostInfo netloc)
  if bracket then (partitionAt ']' bracketed).1 else (partitionAt ':' (hostInfo netloc)).1

theorem mem_cleanUrl {url : String} {c : Char} (hc : 32 < c.toNat) :
    c ∈ cleanUrl url ↔ c ∈ url.toList := by
  have hkept : (c ≠ '\t' && c ≠ '\r' && c ≠ '\n') = true := by
    have hne : ∀ d : Char, d.toNat ≤ 32 → c ≠ d := by
      rintro d hd rfl
      omega
    simp [hne '\t' (by decide), hne '\r' (by decide), hne '\n' (by decide)]
  rw [cleanUrl, List.mem_filter]
  constructor
  · exact fun h => (List.dropWhile_suffix _).subset h.1
  · intro h
    refine ⟨?_, hkept⟩
    rw [← List.takeWhile_append_dropWhile (p := fun c : Char => decide (c.toNat ≤ 32))
      (l := url.toList)] at h
    rcases List.mem_append.1 h with hfront | hrest
    · have hle : decide (c.toNat ≤ 32) = true :=
        List.mem_takeWhile_imp (p := fun c : Char => decide (c.toNat ≤ 32)) hfront
      exact absurd (of_decide_eq_true hle) (by omega)
    · exact hrest

theorem partitionAt_eq {c : Char} {s : List Char} (h : c ∈ s) :
    s = (partitionAt c s).1 ++ c :: (partitionAt c s).2.2 := by
  unfold partitionAt
  induction s with
  | nil => cases h
  | cons d s ih =>
      by_cases hd : d = c
      · simp [hd]
      · have hmem : c ∈ s := (List.mem_cons.1 h).resolve_left fun heq => hd heq.symm
        simpa [hd] using ih hmem

theorem partitionAt_of_notMem {c : Char} {s : List Char} (h : c ∉ s) :
    (partitionAt c s).1 = s := by
  unfold partitionAt
  induction s with
  | nil => rfl
  | cons d s ih =>
      rw [List.mem_cons, not_or] at h
      simpa [Ne.symm h.1] using ih h.2

/-- A character between which and the next the authority ends. -/
def isUrlDelimiter (c : Char) : Bool := c = '/' || c = '?' || c = '#'

/-- The authority of a URL without its scheme, and what follows it. -/
def splitNetloc (rest : List Char) : List Char × List Char :=
  if rest.take 2 = ['/', '/'] then
    ((rest.drop 2).takeWhile (!isUrlDelimiter ·), (rest.drop 2).dropWhile (!isUrlDelimiter ·))
  else ([], rest)

/-- What the split reads past: scheme and authority, which have no `?` and no `#`. -/
theorem splitNetloc_eq (cleaned : List Char) :
    ∃ front, cleaned = front ++ (splitNetloc (splitScheme cleaned).2).2 ∧ '?' ∉ front ∧
      '#' ∉ front := by
  have hnetloc : ∀ rest : List Char, ∃ front, rest = front ++ (splitNetloc rest).2 ∧ '?' ∉ front ∧
      '#' ∉ front := by
    intro rest
    unfold splitNetloc
    split
    · rename_i hslashes
      refine ⟨rest.take 2 ++ (rest.drop 2).takeWhile (!isUrlDelimiter ·), ?_, ?_, ?_⟩
      · rw [List.append_assoc, List.takeWhile_append_dropWhile, List.take_append_drop]
      all_goals
        rw [hslashes]
        intro hmem
        rcases List.mem_append.1 hmem with hfront | hauthority
        · revert hfront
          decide
        · have hno := List.mem_takeWhile_imp hauthority
          revert hno
          decide
    · exact ⟨[], rfl, nofun, nofun⟩
  obtain ⟨authority, hauthority, hquestion, hhash⟩ := hnetloc (splitScheme cleaned).2
  have hscheme : ∃ scheme, cleaned = scheme ++ (splitScheme cleaned).2 ∧ '?' ∉ scheme ∧
      '#' ∉ scheme := by
    unfold splitScheme
    dsimp only
    split
    · rename_i hcond
      rw [Bool.and_eq_true, Bool.and_eq_true] at hcond
      obtain ⟨⟨hfound, -⟩, hall⟩ := hcond
      have hsplit := partitionAt_eq (List.contains_iff_mem.1 hfound)
      have hno : ∀ c, isSchemeChar c = false → c ≠ ':' →
          c ∉ (partitionAt ':' cleaned).1 ++ [':'] := by
        intro c hc hcolon hmem
        rcases List.mem_append.1 hmem with hfront | hmem
        · rw [List.all_eq_true.1 hall c hfront] at hc
          cases hc
        · exact hcolon (List.mem_singleton.1 hmem)
      refine ⟨(partitionAt ':' cleaned).1 ++ [':'], ?_, hno _ (by decide) (by decide),
        hno _ (by decide) (by decide)⟩
      rw [List.append_assoc]
      exact hsplit
    · exact ⟨[], rfl, nofun, nofun⟩
  obtain ⟨scheme, hcleaned, hquestion', hhash'⟩ := hscheme
  refine ⟨scheme ++ authority, ?_, ?_, ?_⟩
  · rw [List.append_assoc, ← hauthority]
    exact hcleaned
  · rw [List.mem_append, not_or]
    exact ⟨hquestion', hquestion⟩
  · rw [List.mem_append, not_or]
    exact ⟨hhash', hhash⟩

theorem of_ite_throw {c : Prop} [Decidable c] {α β : Type} {e : Exc} {f : α → Except Exc β}
    {y : Except Exc β} {b : β} (h : (if c then throw e >>= f else y) = .ok b) : y = .ok b := by
  split at h
  · cases h
  · exact h

/-- The parts of a URL: fragment and query are cut off what follows the authority. -/
theorem urlsplit_eq_ok {url : String} {parsed : SplitResult} (h : urlsplit url = .ok parsed) :
    ∃ rest, (splitNetloc (splitScheme (cleanUrl url)).2).2 = rest ∧
      parsed.query.toList = (partitionAt '?' (partitionAt '#' rest).1).2.2 ∧
      parsed.fragment.toList = (partitionAt '#' rest).2.2 := by
  unfold urlsplit at h
  have h := of_ite_throw (of_ite_throw (of_ite_throw h))
  obtain rfl := Except.ok.inj h
  exact ⟨_, rfl, String.toList_ofList, String.toList_ofList⟩

/-- What the split raises. -/
theorem urlsplit_eq_error {url : String} {e : Exc} (h : urlsplit url = .error e) :
    ∃ message, e = .valueError message := by
  have hthrow : ∀ {c : Prop} [Decidable c] {message : String}
      {f : PUnit → Except Exc SplitResult} {y : Except Exc SplitResult},
      (if c then throw (.valueError message) >>= f else y) = .error e →
        (∃ message, e = .valueError message) ∨ y = .error e := by
    intro c _ message f y hy
    split at hy
    · cases hy
      exact Or.inl ⟨message, rfl⟩
    · exact Or.inr hy
  unfold urlsplit at h
  rcases hthrow h with he | h
  · exact he
  rcases hthrow h with he | h
  · exact he
  rcases hthrow h with he | h
  · exact he
  · cases h

theorem getLast?_of_partitionAt {c : Char} {s : List Char} (h : c ∈ s)
    (hrest : (partitionAt c s).2.2 = []) : s.getLast? = some c := by
  rw [partitionAt_eq h, hrest, List.getLast?_concat]

/-- The URL ends in a delimiter of a query or a fragment. -/
def EndsInDelimiter (url : String) : Prop :=
  (cleanUrl url).getLast? = some '?' ∨ (cleanUrl url).getLast? = some '#'

instance (url : String) : Decidable (EndsInDelimiter url) := inferInstanceAs (Decidable (_ ∨ _))

/-- **Where no query and no fragment is returned**, the URL has a `?` or a `#` when it ends in
one. -/
theorem mem_delimiter_iff {url : String} {parsed : SplitResult} (h : urlsplit url = .ok parsed)
    (hquery : parsed.query = "") (hfragment : parsed.fragment = "") :
    '?' ∈ url.toList ∨ '#' ∈ url.toList ↔ EndsInDelimiter url := by
  rw [← mem_cleanUrl (by decide : 32 < '?'.toNat), ← mem_cleanUrl (by decide : 32 < '#'.toNat)]
  constructor
  · intro hmem
    obtain ⟨rest, hrest, hq, hf⟩ := urlsplit_eq_ok h
    obtain ⟨front, hclean, hquestion, hhash⟩ := splitNetloc_eq (cleanUrl url)
    rw [hquery] at hq
    rw [hfragment] at hf
    rw [hrest] at hclean
    -- the delimiter is in what follows the authority, and the last of it
    have hlast : ∀ c, rest.getLast? = some c → (cleanUrl url).getLast? = some c := by
      intro c hc
      rw [hclean, List.getLast?_append, hc, Option.some_or]
    by_cases hin : '#' ∈ rest
    · exact Or.inr (hlast _ (getLast?_of_partitionAt hin hf.symm))
    · rw [partitionAt_of_notMem hin] at hq
      have hin' : '?' ∈ rest := by
        rw [hclean, List.mem_append, List.mem_append] at hmem
        rcases hmem with (hmem | hmem) | (hmem | hmem)
        · exact absurd hmem hquestion
        · exact hmem
        · exact absurd hmem hhash
        · exact absurd hmem hin
      exact Or.inl (hlast _ (getLast?_of_partitionAt hin' hq.symm))
  · intro hends
    exact hends.imp List.mem_of_getLast? List.mem_of_getLast?

/-! ## The checks -/

/-- What the validator asks of a string in a URL field. -/
theorem validateValue_url {eventType key : String} (hkey : key ∈ urlFields) (url : String) :
    validateValue eventType key (.str url) =
      (do validateText key (.str url); validateHttpsUrl key (.str url)) := by
  have hint : key ∉ intFields := by
    revert key
    decide
  have henum : enums.lookup key = none := by
    revert key
    decide
  have hpattern : (idPatterns.lookup key).isNone := by
    revert key
    decide
  have hcontainer : isContainer (.str url) = false := rfl
  rw [Option.isNone_iff_eq_none] at hpattern
  unfold validateValue
  rw [validateEnum_eq_ok henum, hpattern, hcontainer, if_pos hkey]
  have hrequire : ∀ message, require true message = .ok () := fun _ => rfl
  simp only [hint, not_false_eq_true, decide_true, Bool.true_or, Bool.not_false, Option.all_none,
    hrequire]
  rfl

/-- The check of a text raises when it is not clean. -/
theorem validateText_error {key url : String} (h : ¬ CleanText url) :
    ∃ message, validateText key (.str url) = .error (.payloadValidationError message) := by
  unfold validateText require
  dsimp only
  by_cases hempty : url = ""
  · exact ⟨key ++ " must not be empty", by rw [if_neg (by simp [hempty])]; rfl⟩
  · have hsecret : hasSecretWord url = true := by
      rw [← Bool.not_eq_false]
      exact fun hno => h ⟨hempty, hno⟩
    exact ⟨key ++ " contains prohibited sensitive text", by
      rw [if_pos (by simp [hempty]), hsecret]; rfl⟩

/-- The split of the URL is refused: it is no HTTPS URL, or has a query or a fragment. -/
def SplitResult.Refused (parsed : SplitResult) : Prop :=
  parsed.scheme ≠ "https" ∨ parsed.netloc = "" ∨ parsed.query ≠ "" ∨ parsed.fragment ≠ ""

instance (parsed : SplitResult) : Decidable parsed.Refused := inferInstanceAs (Decidable (_ ∨ _))

theorem validateHttpsUrl_error {key url : String} {parsed : SplitResult}
    (hsplit : urlsplit url = .ok parsed) (h : parsed.Refused) :
    ∃ message, validateHttpsUrl key (.str url) = .error (.payloadValidationError message) := by
  unfold validateHttpsUrl require
  simp only [hsplit]
  by_cases hhost : parsed.scheme = "https" ∧ parsed.netloc ≠ ""
  · have hrest : ¬ (parsed.query = "" ∧ parsed.fragment = "") := by
      intro ⟨hquery, hfragment⟩
      rcases h with hscheme | hnetloc | hfull | hfull
      · exact hscheme hhost.1
      · exact hhost.2 hnetloc
      · exact hfull hquery
      · exact hfull hfragment
    exact ⟨key ++ " must not contain query string or fragment", by
      simp [bind, Except.bind, hhost, hrest]⟩
  · exact ⟨key ++ " must be an HTTPS URL", by simp [bind, Except.bind, hhost]⟩

theorem validateHttpsUrl_ok {key url : String} {parsed : SplitResult}
    (hsplit : urlsplit url = .ok parsed) (h : ¬ parsed.Refused) :
    validateHttpsUrl key (.str url) = .ok () := by
  unfold SplitResult.Refused at h
  push Not at h
  unfold validateHttpsUrl require
  simp [hsplit, bind, Except.bind, h]

/-! ## Payloads -/

theorem forM_eq_error {α : Type} {f : α → Except Exc Unit} {xs : List α} {e : Exc}
    (hall : ∀ x ∈ xs, f x = .ok () ∨ f x = .error e) (hsome : ∃ x ∈ xs, f x = .error e) :
    xs.forM f = .error e := by
  induction xs with
  | nil =>
      obtain ⟨_, hx, -⟩ := hsome
      cases hx
  | cons x xs ih =>
      have hstep : (x :: xs).forM f = (f x >>= fun _ => xs.forM f) := rfl
      rw [hstep]
      rcases hall x List.mem_cons_self with hx | hx
      · rw [hx]
        refine ih (fun y hy => hall y (List.mem_cons_of_mem _ hy)) ?_
        obtain ⟨y, hy, he⟩ := hsome
        rcases List.mem_cons.1 hy with rfl | hy
        · rw [hx] at he
          cases he
        · exact ⟨y, hy, he⟩
      · rw [hx]
        rfl

/-- In a payload that is accepted but for one field, what its check raises is raised. -/
theorem validateEventPayload_error {eventType key : String} {payload : Mapping PyVal}
    {value : PyVal} {e : Exc} (hkind : AllowsField eventType key)
    (hd : eventType ≠ "agent.dispatched") (hvalue : payload.lookup key = some value)
    (hne : value ≠ .none) (hrest : Accepted eventType (payload.erase key))
    (he : validateValue eventType key value = .error e) :
    validateEventPayload eventType (.mapping payload) = .error e := by
  obtain ⟨required, optional, hf, hmem⟩ := hkind
  obtain ⟨hkeys, hvals, -⟩ := (accepted_iff hf hd).1 hrest
  have hknown : payload.keys.filter (· ∉ required ++ optional) = [] := by
    refine List.filter_eq_nil_iff.2 fun k hk => ?_
    rw [decide_eq_true_iff, not_not]
    obtain ⟨x, hx, rfl⟩ := Mapping.mem_keys.1 hk
    rcases mem_entries_erase hvalue hx with rfl | hx
    · exact hmem
    · exact hkeys _ (List.mem_map_of_mem hx)
  have hloop : (payload.entries.forM fun x => if x.2 = .none then pure ()
      else validateValue eventType x.1 x.2) = .error e := by
    refine forM_eq_error (fun x hx => ?_) ⟨⟨key, value⟩, AList.mem_lookup_iff.1 hvalue, ?_⟩
    · rcases mem_entries_erase hvalue hx with rfl | hx
      · rw [if_neg hne]
        exact Or.inr he
      · by_cases hnone : x.2 = .none
        · rw [if_pos hnone]
          exact Or.inl rfl
        · rw [if_neg hnone]
          exact Or.inl (hvals x hx hnone)
    · rw [if_neg hne]
      exact he
  unfold validateEventPayload validateFields
  rw [hf]
  dsimp only
  rw [hknown, hloop]
  rfl

/-- The URL hides nothing: HTTPS, a host, no user information, no `?` and no `#`. -/
def PlainUrl (url : String) : Prop :=
  ∃ parsed, urlsplit url = .ok parsed ∧ parsed.scheme = "https" ∧
    hostOf parsed.netloc.toList ≠ [] ∧ '@' ∉ parsed.netloc.toList ∧
    '?' ∉ url.toList ∧ '#' ∉ url.toList

/-- Validation ends safely: it raises its own exception, or accepts a plain URL. -/
def UrlSafe (eventType : String) (payload : Mapping PyVal) (url : String) : Prop :=
  (∃ message, validateEventPayload eventType (.mapping payload) =
    .error (.payloadValidationError message)) ∨
  (∃ normalized, validateEventPayload eventType (.mapping payload) = .ok normalized) ∧
    PlainUrl url

/-- What is not refused is plain when it has a host, no `@` in the authority and no delimiter at
its end. -/
theorem plainUrl_iff {url : String} {parsed : SplitResult} (hsplit : urlsplit url = .ok parsed)
    (h : ¬ parsed.Refused) : PlainUrl url ↔
      '@' ∉ parsed.netloc.toList ∧ hostOf parsed.netloc.toList ≠ [] ∧ ¬ EndsInDelimiter url := by
  unfold SplitResult.Refused at h
  push Not at h
  obtain ⟨hscheme, -, hquery, hfragment⟩ := h
  rw [← mem_delimiter_iff hsplit hquery hfragment, not_or]
  constructor
  · rintro ⟨parsed', hparsed, -, hhost, huser, hends⟩
    rw [hsplit] at hparsed
    cases hparsed
    exact ⟨huser, hhost, hends⟩
  · rintro ⟨huser, hhost, hends⟩
    exact ⟨parsed, hsplit, hscheme, hhost, huser, hends⟩

/-- **For which URLs the outcome is safe**: those that are no clean text, and of those the split
accepts, the refused ones and the ones with a host and no `@` in the authority that end neither
in `?` nor in `#`. -/
theorem urlSafe_iff {eventType key url : String} {payload : Mapping PyVal}
    (hkey : key ∈ urlFields) (hkind : AllowsField eventType key)
    (hvalue : payload.lookup key = some (.str url))
    (hrest : Accepted eventType (payload.erase key)) :
    UrlSafe eventType payload url ↔ ¬ CleanText url ∨ ∃ parsed, urlsplit url = .ok parsed ∧
      (parsed.Refused ∨ '@' ∉ parsed.netloc.toList ∧ hostOf parsed.netloc.toList ≠ [] ∧
        ¬ EndsInDelimiter url) := by
  have hd : eventType ≠ "agent.dispatched" := by
    have hno : ∀ k ∈ urlFields,
        k ∉ ["kanban_task_id", "dispatch_backend", "status", "assignee"] := by decide
    exact not_dispatched_of_allows hkind (hno key hkey)
  have hraise : ∀ {e : Exc}, validateValue eventType key (.str url) = .error e →
      validateEventPayload eventType (.mapping payload) = .error e :=
    fun he => validateEventPayload_error hkind hd hvalue (by simp) hrest he
  have hchecks : validateValue eventType key (.str url) = _ := validateValue_url hkey url
  by_cases hclean : CleanText url
  · have htext : validateText key (.str url) = .ok () := by
      obtain ⟨hempty, hsecret⟩ := hclean
      unfold validateText require
      simp [hempty, hsecret, bind, Except.bind]
    rw [htext] at hchecks
    cases hsplit : urlsplit url with
    | error e =>
        obtain ⟨message, rfl⟩ := urlsplit_eq_error hsplit
        have hvalid : validateValue eventType key (.str url) = .error (.valueError message) := by
          rw [hchecks]
          unfold validateHttpsUrl
          simp [hsplit, bind, Except.bind]
        have hout := hraise hvalid
        constructor
        · rintro (⟨message', hpve⟩ | ⟨-, parsed, hplain, -⟩)
          · rw [hout] at hpve
            have htype : "ValueError" = "PayloadValidationError" :=
              congrArg Exc.typeName (Except.error.inj hpve)
            exact absurd htype (by decide)
          · rw [hsplit] at hplain
            cases hplain
        · rintro (hno | ⟨parsed, hparsed, -⟩)
          · exact absurd hclean hno
          · cases hparsed
    | ok parsed =>
        by_cases hrefused : parsed.Refused
        · obtain ⟨message, he⟩ : ∃ message, validateHttpsUrl key (.str url) =
              .error (.payloadValidationError message) := validateHttpsUrl_error hsplit hrefused
          rw [he] at hchecks
          exact ⟨fun _ => Or.inr ⟨parsed, rfl, Or.inl hrefused⟩,
            fun _ => Or.inl ⟨message, hraise hchecks⟩⟩
        · rw [validateHttpsUrl_ok hsplit hrefused] at hchecks
          have haccepted : ∃ normalized,
              validateEventPayload eventType (.mapping payload) = .ok normalized :=
            accepted_iff_ok.1 ((accepted_erase_iff hkind hd hvalue (by simp) hrest).2 hchecks)
          have hplain := plainUrl_iff hsplit hrefused
          constructor
          · rintro (⟨message, hpve⟩ | ⟨-, hsafe⟩)
            · obtain ⟨normalized, hok⟩ := haccepted
              rw [hok] at hpve
              cases hpve
            · exact Or.inr ⟨parsed, rfl, Or.inr (hplain.1 hsafe)⟩
          · rintro (hno | ⟨parsed', hparsed, hcond⟩)
            · exact absurd hclean hno
            · cases hparsed
              exact Or.inr ⟨haccepted, hplain.2 (hcond.resolve_left hrefused)⟩
  · obtain ⟨message, he⟩ : ∃ message, validateText key (.str url) =
        .error (.payloadValidationError message) := validateText_error hclean
    rw [he] at hchecks
    exact ⟨fun _ => Or.inl hclean, fun _ => Or.inl ⟨message, hraise hchecks⟩⟩

/-- The payload of a review with a pull request. -/
def reviewPayload (url : String) : Mapping PyVal :=
  .mk [⟨"review_status", .str "approved"⟩, ⟨"pull_request_url", .str url⟩]

theorem review_allows_url : AllowsField "review.completed" "pull_request_url" :=
  ⟨_, _, rfl, by decide⟩

theorem lookup_reviewPayload (url : String) :
    (reviewPayload url).lookup "pull_request_url" = some (.str url) := rfl

theorem review_rest_accepted (url : String) :
    Accepted "review.completed" ((reviewPayload url).erase "pull_request_url") := by
  have hrest : (reviewPayload url).erase "pull_request_url" =
      Mapping.mk [⟨"review_status", PyVal.str "approved"⟩] := AList.ext rfl
  rw [hrest]
  decide

/-- A pull request's URL is safe. -/
theorem urlSafe_github : UrlSafe "review.completed"
    (reviewPayload "https://github.com/o/r/pull/1") "https://github.com/o/r/pull/1" := by
  have hsplit : urlsplit "https://github.com/o/r/pull/1" =
      .ok ⟨"https", "github.com", "/o/r/pull/1", "", ""⟩ := by rfl
  have hplain : '@' ∉ "github.com".toList ∧ hostOf "github.com".toList ≠ [] ∧
      ¬ EndsInDelimiter "https://github.com/o/r/pull/1" := by decide
  have hiff := urlSafe_iff (by decide) review_allows_url
    (lookup_reviewPayload "https://github.com/o/r/pull/1") (review_rest_accepted _)
  exact hiff.2 (Or.inr ⟨_, hsplit, Or.inr hplain⟩)

/-- A URL with a password is accepted. -/
theorem url_with_password :
    ¬ ∀ (eventType key url : String) (payload : Mapping PyVal), key ∈ urlFields →
      AllowsField eventType key → payload.lookup key = some (.str url) →
      Accepted eventType (payload.erase key) → UrlSafe eventType payload url := by
  intro h
  have hsplit : urlsplit "https://user:pw@host" = .ok ⟨"https", "user:pw@host", "", "", ""⟩ := by
    rfl
  have hok : validateEventPayload "review.completed"
      (.mapping (reviewPayload "https://user:pw@host")) =
      .ok (reviewPayload "https://user:pw@host") := by rfl
  rcases h "review.completed" "pull_request_url" "https://user:pw@host" _ (by decide)
    review_allows_url (lookup_reviewPayload _) (review_rest_accepted _) with
    ⟨message, hno⟩ | ⟨-, parsed, hparsed, -, -, huser, -⟩
  · rw [hok] at hno
    cases hno
  · rw [hsplit] at hparsed
    cases hparsed
    exact huser (by decide)

end HermesRuntime
