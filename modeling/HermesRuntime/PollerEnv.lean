import HermesRuntime.Kanban
import Mathlib.Data.List.DropRight

/-!
# The secrets of a tick (`poller_env.py`, `smoke_lib.py`, `poller_tick.py`)

Before anything else a tick checks that the secrets it needs are there, in the process environment
or in an env file, and exports those of the file into the environment. The store then takes its
two from the environment; the client of Linear reads an env file for its own.
-/

namespace HermesRuntime

/-! ## Text files -/

/-- What is in the files: their decoded text, or what reading one raises. -/
abbrev Files : Type := String → Except Exc String

/-- The newlines `read_text` translates; `afterCr` says whether a `\r` came just before. -/
def universalNewlines (afterCr : Bool) : List Char → List Char
  | [] => []
  | c :: rest =>
      if c = '\r' then '\n' :: universalNewlines true rest
      else if afterCr && c = '\n' then universalNewlines false rest
      else c :: universalNewlines false rest

/-- `path.read_text(encoding="utf-8")` -/
def readText (files : Files) (path : String) : Except Exc (List Char) :=
  (files path).map fun text => universalNewlines false text.toList

/-- The characters `str.splitlines` breaks lines at. -/
def isLineBreak (c : Char) : Bool :=
  (0x0a ≤ c.toNat && c.toNat ≤ 0x0d) || (0x1c ≤ c.toNat && c.toNat ≤ 0x1e) ||
    c.toNat ∈ [0x85, 0x2028, 0x2029]

/-- `text.splitlines()`, where the newlines of the text are translated. -/
def splitlines : List Char → List (List Char)
  | [] => []
  | c :: rest =>
      if isLineBreak c then [] :: splitlines rest
      else match splitlines rest with
        | [] => [[c]]
        | line :: lines => (c :: line) :: lines

/-- The characters `str.strip` takes for white space. -/
def isSpace (c : Char) : Bool :=
  (0x09 ≤ c.toNat && c.toNat ≤ 0x0d) || (0x1c ≤ c.toNat && c.toNat ≤ 0x20) ||
    (0x2000 ≤ c.toNat && c.toNat ≤ 0x200a) ||
    c.toNat ∈ [0x85, 0xa0, 0x1680, 0x2028, 0x2029, 0x202f, 0x205f, 0x3000]

/-- `text.strip(…)` -/
def strip (p : Char → Bool) (text : List Char) : List Char := (text.dropWhile p).rdropWhile p

/-! ## Env files -/

/-- A line of an env file: its key and value, unless the line is skipped. -/
def parseLine (raw : List Char) : Option (String × String) :=
  let line := strip isSpace raw
  if line = [] || line.head? = some '#' || '=' ∉ line then none
  else
    let key := line.takeWhile (· ≠ '=')
    let value := (line.dropWhile (· ≠ '=')).tail
    some (String.ofList (strip isSpace key),
      String.ofList (strip (· = '\x27') (strip (· = '\x22') (strip isSpace value))))

/-- The `load_env` of `poller_env` and of `smoke_lib`. -/
def loadEnv (files : Files) (path : String) : Except Exc (Mapping String) := do
  let text ← readText files path
  pure ((splitlines text).foldl (fun out raw =>
    match parseLine raw with
    | none => out
    | some (key, value) => out.set key value) ∅)

/-- `SHARED_ENV`, and `DEFAULT_ENV_FILE` -/
def sharedEnv : String := "/home/alexandre/.hermes/shared/.env"

/-- `env_file_path` -/
def envFilePath (environ : Mapping String) : String :=
  (environ.lookup "POLLER_ENV_FILE").getD sharedEnv

/-! ## The process environment -/

/-- `os.putenv(key, value)` -/
def putenv (key value : String) : Except Exc Unit :=
  if '\x00' ∈ key.toList ∨ '\x00' ∈ value.toList then .error (.valueError "embedded null byte")
  else if '=' ∈ key.toList then .error (.valueError "illegal environment variable name")
  else if key = "" then .error { typeName := "OSError", message := "[Errno 22] Invalid argument" }
  else .ok ()

/-- `os.environ.setdefault(key, value)` -/
def setdefault (environ : Mapping String) (key value : String) :
    Except Exc (Mapping String) := do
  if key ∈ environ.keys then
    pure environ
  else
    putenv key value
    pure (environ.set key value)

/-- `export_into_environ`: the environment afterwards. -/
def exportIntoEnviron (files : Files) (environ : Mapping String) :
    Except Exc (Mapping String) := do
  let env ← loadEnv files (envFilePath environ)
  env.entries.foldlM (fun environ e => setdefault environ e.1 e.2) environ

/-- `REQUIRED_KEYS` -/
def requiredKeys : List String :=
  ["SUPABASE_URL", "SUPABASE_SERVICE_ROLE_KEY", "LINEAR_API_KEY"]

/-- `{**load_env(path), **os.environ}` -/
def preflightEnv (files : Files) (environ : Mapping String) : Except Exc (Mapping String) := do
  let env ← loadEnv files (envFilePath environ)
  pure (env.update environ)

/-- `missing_required` -/
def missingRequired (files : Files) (environ : Mapping String) : Except Exc (List String) := do
  let env ← preflightEnv files environ
  pure (requiredKeys.filter fun k => (truthy (env.lookup k)).isNone)

/-! ## Who looks the secrets up -/

/-- `env[key]` -/
def getItem (env : Mapping String) (key : String) : Except Exc String :=
  match env.lookup key with
  | some value => .ok value
  | none => .error { typeName := "KeyError", message := "\x27" ++ key ++ "\x27" }

/-- What `SupabaseStore.from_environment` hands to its constructor. -/
def fromEnvironment (environ : Mapping String) : Except Exc (String × String) := do
  let url ← getItem environ "SUPABASE_URL"
  let serviceKey ← getItem environ "SUPABASE_SERVICE_ROLE_KEY"
  pure (url, serviceKey)

/-- `Linear()`: its key. -/
def linearKey (files : Files) : Except Exc String := do
  let env ← loadEnv files sharedEnv
  getItem env "LINEAR_API_KEY"

/-- The secrets `main` goes on with. -/
structure TickSecrets where
  linearKey : String
  supabaseUrl : String
  serviceKey : String
  deriving DecidableEq

/-- `main` up to its clients, from the environment it is started in; `none` where it returns
`EX_CONFIG`. -/
def tickSecrets (files : Files) (environ : Mapping String) :
    Except Exc (Option TickSecrets) := do
  let missing ← missingRequired files environ
  if missing ≠ [] then
    pure none
  else
    let environ ← exportIntoEnviron files environ
    let key ← linearKey files
    let (url, serviceKey) ← fromEnvironment environ
    pure (some ⟨key, url, serviceKey⟩)

end HermesRuntime
