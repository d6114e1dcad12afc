import HermesRuntime.PollerEnv

/-!
# The preflight of a tick

The preflight looks at the process environment over the env file, and the export keeps what is set
before, so the store finds what the preflight saw. The client of Linear looks neither at the
environment nor at a redirected env file.

* `lookup_preflightEnv`, `lookup_exportIntoEnviron` — both see the environment over the file.
* `fromEnvironment_found` — what the store finds.
* `preflight_sound_iff` — when all secrets are found as the preflight saw them.
-/

namespace HermesRuntime

/-! ## The export -/

/-- A key that is set keeps its value, and no other key is touched. -/
theorem lookup_setdefault {environ environ' : Mapping String} {key value : String}
    (h : setdefault environ key value = .ok environ') (key' : String) :
    environ'.lookup key' =
      (environ.lookup key').or (if key' = key then some value else none) := by
  unfold setdefault at h
  by_cases hin : key ∈ environ.keys
  · rw [if_pos hin] at h
    obtain rfl : environ = environ' := Except.ok.inj h
    by_cases hk : key' = key
    · obtain ⟨old, hold⟩ := Option.isSome_iff_exists.1 (AList.lookup_isSome.2 hin)
      rw [hk, hold, Option.some_or]
    · rw [if_neg hk, Option.or_none]
  · rw [if_neg hin] at h
    cases hput : putenv key value with
    | error e =>
        rw [hput] at h
        cases h
    | ok u =>
        rw [hput] at h
        obtain rfl : environ.set key value = environ' := Except.ok.inj h
        rw [Mapping.lookup_set]
        by_cases hk : key' = key
        · have hnone : environ.lookup key = none := AList.lookup_eq_none.2 hin
          rw [if_pos hk, if_pos hk, hk, hnone, Option.none_or]
        · rw [if_neg hk, if_neg hk, Option.or_none]

/-- So one `setdefault` after the other fills in what is not set. -/
theorem lookup_foldlM_setdefault {entries : List (Sigma fun _ : String => String)}
    {environ environ' : Mapping String}
    (h : entries.foldlM (fun environ e => setdefault environ e.1 e.2) environ = .ok environ')
    (key : String) :
    environ'.lookup key = (environ.lookup key).or (entries.dlookup key) := by
  induction entries generalizing environ with
  | nil =>
      obtain rfl : environ = environ' := Except.ok.inj h
      rw [List.dlookup_nil, Option.or_none]
  | cons e entries ih =>
      rw [List.foldlM_cons] at h
      cases hset : setdefault environ e.1 e.2 with
      | error exc =>
          rw [hset] at h
          cases h
      | ok next =>
          rw [hset] at h
          rw [ih h, lookup_setdefault hset, Option.or_assoc]
          obtain ⟨k, v⟩ := e
          by_cases hk : key = k
          · subst hk
            rw [if_pos rfl, List.dlookup_cons_eq, Option.some_or]
          · rw [if_neg hk, List.dlookup_cons_ne _ _ hk, Option.none_or]

/-! ## What the preflight and the export see -/

section

variable {files : Files} {environ : Mapping String}

/-- The preflight sees the environment over the env file. -/
theorem lookup_preflightEnv {seen : Mapping String} (h : preflightEnv files environ = .ok seen) :
    ∃ own, loadEnv files (envFilePath environ) = .ok own ∧
      ∀ key, seen.lookup key = (environ.lookup key).or (own.lookup key) := by
  unfold preflightEnv at h
  cases hown : loadEnv files (envFilePath environ) with
  | error e =>
      rw [hown] at h
      cases h
  | ok own =>
      rw [hown] at h
      obtain rfl : own.update environ = seen := Except.ok.inj h
      exact ⟨own, rfl, Mapping.lookup_update own environ⟩

/-- The environment after the export is what the preflight has seen. -/
theorem lookup_exportIntoEnviron {seen environ' : Mapping String}
    (h : preflightEnv files environ = .ok seen)
    (hexport : exportIntoEnviron files environ = .ok environ') (key : String) :
    environ'.lookup key = seen.lookup key := by
  obtain ⟨own, hown, hseen⟩ := lookup_preflightEnv h
  unfold exportIntoEnviron at hexport
  rw [hown] at hexport
  rw [hseen, lookup_foldlM_setdefault hexport]
  rfl

/-- A preflight that misses nothing has seen a value for every required key. -/
theorem missingRequired_eq_nil_iff : missingRequired files environ = .ok [] ↔
    ∃ seen, preflightEnv files environ = .ok seen ∧
      ∀ key ∈ requiredKeys, ∃ value, seen.lookup key = some value ∧ value ≠ "" := by
  unfold missingRequired
  cases hseen : preflightEnv files environ with
  | error e =>
      refine iff_of_false (fun h => by cases h) ?_
      rintro ⟨_, h, -⟩
      cases h
  | ok seen =>
      have htruthy : ∀ key, ¬ (truthy (seen.lookup key)).isNone = true ↔
          ∃ value, seen.lookup key = some value ∧ value ≠ "" := by
        intro key
        rw [Option.isNone_iff_eq_none]
        cases seen.lookup key with
        | none => simp [truthy]
        | some value => simp [truthy, Option.filter]
      constructor
      · intro h
        have hnil := Except.ok.inj h
        exact ⟨seen, rfl, fun key hkey => (htruthy key).1 (List.filter_eq_nil_iff.1 hnil key hkey)⟩
      · rintro ⟨_, h, hall⟩
        obtain rfl := Except.ok.inj h
        exact congrArg Except.ok (List.filter_eq_nil_iff.2 fun key hkey =>
          (htruthy key).2 (hall key hkey))

/-! ## The lookups of a tick -/

theorem getItem_eq_ok_iff {env : Mapping String} {key value : String} :
    getItem env key = .ok value ↔ env.lookup key = some value := by
  unfold getItem
  cases env.lookup key with
  | none => simp
  | some v => simp

/-- The preflight has seen this value for the key, and it is not empty. -/
def Saw (files : Files) (environ : Mapping String) (key value : String) : Prop :=
  value ≠ "" ∧ ∃ seen, preflightEnv files environ = .ok seen ∧ seen.lookup key = some value

theorem saw_unique {key value value' : String} (h : Saw files environ key value)
    (h' : Saw files environ key value') : value = value' := by
  obtain ⟨-, seen, hseen, hvalue⟩ := h
  obtain ⟨-, seen', hseen', hvalue'⟩ := h'
  obtain rfl := Except.ok.inj (hseen.symm.trans hseen')
  exact Option.some.inj (hvalue.symm.trans hvalue')

/-- After a preflight that misses nothing, the store finds what the preflight saw. -/
theorem fromEnvironment_found {environ' : Mapping String}
    (hmissing : missingRequired files environ = .ok [])
    (hexport : exportIntoEnviron files environ = .ok environ') :
    ∃ url serviceKey, fromEnvironment environ' = .ok (url, serviceKey) ∧
      Saw files environ "SUPABASE_URL" url ∧
      Saw files environ "SUPABASE_SERVICE_ROLE_KEY" serviceKey := by
  obtain ⟨seen, hseen, hall⟩ := missingRequired_eq_nil_iff.1 hmissing
  have hfound : ∀ key ∈ requiredKeys, ∃ value, getItem environ' key = .ok value ∧
      Saw files environ key value := by
    intro key hkey
    obtain ⟨value, hvalue, hne⟩ := hall key hkey
    refine ⟨value, getItem_eq_ok_iff.2 ?_, hne, seen, hseen, hvalue⟩
    rw [lookup_exportIntoEnviron hseen hexport, hvalue]
  obtain ⟨url, hurl, hsaw⟩ := hfound "SUPABASE_URL" (by decide)
  obtain ⟨serviceKey, hkey, hsaw'⟩ := hfound "SUPABASE_SERVICE_ROLE_KEY" (by decide)
  refine ⟨url, serviceKey, ?_, hsaw, hsaw'⟩
  unfold fromEnvironment
  rw [hurl, hkey]
  rfl

/-- Behind the preflight, a tick gets its secrets where the client of Linear finds its key. -/
theorem tickSecrets_eq {environ' : Mapping String} {url serviceKey : String}
    (hmissing : missingRequired files environ = .ok [])
    (hexport : exportIntoEnviron files environ = .ok environ')
    (hstore : fromEnvironment environ' = .ok (url, serviceKey)) :
    tickSecrets files environ =
      (linearKey files).map fun key => some ⟨key, url, serviceKey⟩ := by
  unfold tickSecrets
  rw [hmissing]
  show (exportIntoEnviron files environ >>= _) = _
  rw [hexport]
  show (linearKey files >>= _) = _
  cases linearKey files with
  | error e => rfl
  | ok key =>
      show (fromEnvironment environ' >>= _) = _
      rw [hstore]
      rfl

/-- The shared file has the key of Linear: with the value of the process environment where that
sets the key, else with that of the env file, which may be the shared file itself. -/
def SharedKeyFits (files : Files) (environ : Mapping String) : Prop :=
  ∃ shared, loadEnv files sharedEnv = .ok shared ∧
    ((∃ value, environ.lookup "LINEAR_API_KEY" = some value ∧
        shared.lookup "LINEAR_API_KEY" = some value) ∨
      environ.lookup "LINEAR_API_KEY" = none ∧
        (envFilePath environ = sharedEnv ∨
          ∃ own, loadEnv files (envFilePath environ) = .ok own ∧
            shared.lookup "LINEAR_API_KEY" = own.lookup "LINEAR_API_KEY"))

/-- Where the preflight has seen a key of Linear, the client finds it just if the shared file
fits. -/
theorem linearKey_saw_iff {value : String} (h : Saw files environ "LINEAR_API_KEY" value) :
    linearKey files = .ok value ↔ SharedKeyFits files environ := by
  obtain ⟨-, seen, hseen, hvalue⟩ := h
  obtain ⟨own, hown, hlookup⟩ := lookup_preflightEnv hseen
  rw [hlookup] at hvalue
  unfold linearKey SharedKeyFits
  cases hshared : loadEnv files sharedEnv with
  | error e =>
      refine iff_of_false (fun h => by cases h) ?_
      rintro ⟨_, h, -⟩
      cases h
  | ok shared =>
      have hget : (Except.ok shared >>= fun env => getItem env "LINEAR_API_KEY") =
          (.ok value : Except Exc String) ↔ shared.lookup "LINEAR_API_KEY" = some value :=
        getItem_eq_ok_iff
      rw [hget]
      cases hset : environ.lookup "LINEAR_API_KEY" with
      | some w =>
          rw [hset, Option.some_or] at hvalue
          rw [← hvalue]
          simp
      | none =>
          rw [hset, Option.none_or] at hvalue
          rw [← hvalue]
          constructor
          · intro h
            exact ⟨shared, rfl, Or.inr ⟨rfl, Or.inr ⟨own, hown, h⟩⟩⟩
          · rintro ⟨_, h, ⟨_, hw, -⟩ | ⟨-, hpath | ⟨own', hown', hsame⟩⟩⟩
            · cases hw
            · rw [hpath, hshared] at hown
              rw [Except.ok.inj hown]
            · obtain rfl := Except.ok.inj h
              rw [hsame, Except.ok.inj (hown'.symm.trans hown)]

/-- **When the preflight is sound.** If it misses nothing and the export has run, the tick finds
all three secrets as the preflight saw them just if the shared file fits. -/
theorem preflight_sound_iff (files : Files) (environ environ' : Mapping String)
    (hmissing : missingRequired files environ = .ok [])
    (hexport : exportIntoEnviron files environ = .ok environ') :
    (∃ secrets, tickSecrets files environ = .ok (some secrets) ∧
      Saw files environ "SUPABASE_URL" secrets.supabaseUrl ∧
      Saw files environ "SUPABASE_SERVICE_ROLE_KEY" secrets.serviceKey ∧
      Saw files environ "LINEAR_API_KEY" secrets.linearKey) ↔ SharedKeyFits files environ := by
  obtain ⟨url, serviceKey, hstore, hurl, hservice⟩ := fromEnvironment_found hmissing hexport
  obtain ⟨seen, hseen, hall⟩ := missingRequired_eq_nil_iff.1 hmissing
  obtain ⟨value, hvalue, hne⟩ := hall "LINEAR_API_KEY" (by decide)
  have hsaw : Saw files environ "LINEAR_API_KEY" value := ⟨hne, seen, hseen, hvalue⟩
  rw [← linearKey_saw_iff hsaw, tickSecrets_eq hmissing hexport hstore]
  constructor
  · rintro ⟨secrets, hsecrets, -, -, hlinear⟩
    cases hkey : linearKey files with
    | error e =>
        rw [hkey] at hsecrets
        cases hsecrets
    | ok key =>
        rw [hkey] at hsecrets
        cases hsecrets
        rw [saw_unique hsaw hlinear]
  · intro hkey
    rw [hkey]
    exact ⟨_, rfl, hurl, hservice, hsaw⟩

/-- With the default env file and no key in the process environment the preflight is sound. -/
theorem sharedKeyFits_of_default (hpath : envFilePath environ = sharedEnv)
    (hset : environ.lookup "LINEAR_API_KEY" = none)
    (hmissing : missingRequired files environ = .ok []) : SharedKeyFits files environ := by
  obtain ⟨seen, hseen, -⟩ := missingRequired_eq_nil_iff.1 hmissing
  obtain ⟨own, hown, -⟩ := lookup_preflightEnv hseen
  rw [hpath] at hown
  exact ⟨own, hown, Or.inr ⟨hset, Or.inl hpath⟩⟩

end

/-! ## A redirected env file -/

/-- An env file with the three secrets. -/
def secretsText : String :=
  "SUPABASE_URL=https://db\nSUPABASE_SERVICE_ROLE_KEY=role\nLINEAR_API_KEY=lin\n"

theorem loadEnv_secrets {files : Files} {path : String} (h : files path = .ok secretsText) :
    loadEnv files path = .ok (.mk [⟨"SUPABASE_URL", "https://db"⟩,
      ⟨"SUPABASE_SERVICE_ROLE_KEY", "role"⟩, ⟨"LINEAR_API_KEY", "lin"⟩]) := by
  unfold loadEnv readText
  rw [h]
  rfl

/-- Such a file is enough for the preflight. -/
theorem missingRequired_secrets {files : Files} {environ : Mapping String}
    (h : files (envFilePath environ) = .ok secretsText)
    (hset : ∀ key ∈ requiredKeys, environ.lookup key = none) :
    missingRequired files environ = .ok [] := by
  obtain ⟨own, hown⟩ : ∃ own, loadEnv files (envFilePath environ) = .ok own :=
    ⟨_, loadEnv_secrets h⟩
  have hlisted : ∀ key ∈ requiredKeys, ∃ value, own.lookup key = some value ∧ value ≠ "" := by
    obtain rfl := Except.ok.inj ((loadEnv_secrets h).symm.trans hown)
    exact List.forall_mem_cons.2 ⟨⟨"https://db", rfl, by decide⟩, List.forall_mem_cons.2
      ⟨⟨"role", rfl, by decide⟩, List.forall_mem_singleton.2 ⟨"lin", rfl, by decide⟩⟩⟩
  refine missingRequired_eq_nil_iff.2 ⟨own.update environ, ?_, fun key hkey => ?_⟩
  · unfold preflightEnv
    rw [hown]
    rfl
  · rw [Mapping.lookup_update, hset key hkey, Option.none_or]
    exact hlisted key hkey

/-- One env file with the secrets, and a shared file that may be empty. -/
def filesAt (path shared : String) : Files := fun p =>
  if p = path then .ok secretsText
  else if p = sharedEnv then .ok shared
  else .error { typeName := "FileNotFoundError", message := p }

/-- In the shared file the secrets are found. -/
theorem preflight_sound_shared : ∃ secrets, tickSecrets (filesAt sharedEnv "") ∅ =
    .ok (some secrets) ∧ Saw (filesAt sharedEnv "") ∅ "LINEAR_API_KEY" secrets.linearKey := by
  have hfile : filesAt sharedEnv "" (envFilePath ∅) = .ok secretsText := rfl
  have hmissing : missingRequired (filesAt sharedEnv "") ∅ = .ok [] :=
    missingRequired_secrets hfile fun key _ => AList.lookup_empty key
  have hexport : exportIntoEnviron (filesAt sharedEnv "") ∅ =
      .ok (.mk [⟨"SUPABASE_URL", "https://db"⟩, ⟨"SUPABASE_SERVICE_ROLE_KEY", "role"⟩,
        ⟨"LINEAR_API_KEY", "lin"⟩]) := by
    unfold exportIntoEnviron
    rw [loadEnv_secrets hfile]
    rfl
  obtain ⟨secrets, hsecrets, -, -, hlinear⟩ :=
    (preflight_sound_iff (filesAt sharedEnv "") ∅ _ hmissing hexport).2
      (sharedKeyFits_of_default rfl (AList.lookup_empty _) hmissing)
  exact ⟨secrets, hsecrets, hlinear⟩

/-- The process environment with the env file redirected. -/
def redirected : Mapping String :=
  .mk [⟨"POLLER_ENV_FILE", "/etc/poller.env"⟩] (List.nodup_singleton "POLLER_ENV_FILE")

/-- Behind a preflight of a redirected env file, the client of Linear still reads the shared
one. -/
theorem redirected_unsound :
    ¬ ∀ (files : Files) (environ environ' : Mapping String),
      missingRequired files environ = .ok [] →
      exportIntoEnviron files environ = .ok environ' →
      ∃ secrets, tickSecrets files environ = .ok (some secrets) ∧
        Saw files environ "SUPABASE_URL" secrets.supabaseUrl ∧
        Saw files environ "SUPABASE_SERVICE_ROLE_KEY" secrets.serviceKey ∧
        Saw files environ "LINEAR_API_KEY" secrets.linearKey := by
  intro h
  have hfile : filesAt "/etc/poller.env" "" (envFilePath redirected) = .ok secretsText := rfl
  have hmissing : missingRequired (filesAt "/etc/poller.env" "") redirected = .ok [] :=
    missingRequired_secrets hfile (by decide)
  have hexport : exportIntoEnviron (filesAt "/etc/poller.env" "") redirected =
      .ok (.mk [⟨"POLLER_ENV_FILE", "/etc/poller.env"⟩, ⟨"SUPABASE_URL", "https://db"⟩,
        ⟨"SUPABASE_SERVICE_ROLE_KEY", "role"⟩, ⟨"LINEAR_API_KEY", "lin"⟩]) := by
    unfold exportIntoEnviron
    rw [loadEnv_secrets hfile]
    rfl
  have hraise : linearKey (filesAt "/etc/poller.env" "") =
      .error { typeName := "KeyError", message := "\x27LINEAR_API_KEY\x27" } := rfl
  obtain ⟨secrets, hsecrets, -⟩ := h _ _ _ hmissing hexport
  obtain ⟨url, serviceKey, hstore, -⟩ := fromEnvironment_found hmissing hexport
  rw [tickSecrets_eq hmissing hexport hstore, hraise] at hsecrets
  cases hsecrets

end HermesRuntime
