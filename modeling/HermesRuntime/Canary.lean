import HermesRuntime.ChainPin
import HermesRuntime.Launcher

/-!
# The canary (`canary_readonly.py`)

Before a unit is enabled the canary goes through what a tick will need: the interpreter, the home,
the pinned chain, the board, the unit files and the secrets. It keeps what it has checked in a
list, and its exit status says whether all of it holds.
-/

namespace HermesRuntime

/-- An entry of `_checks`, with its detail as a text. -/
structure Verdict where
  label : String
  ok : Bool
  detail : String
  deriving DecidableEq

/-- What a process has left: its status and its output. -/
structure Completed where
  returncode : Int
  stdout : String
  stderr : String

/-- What the canary finds where it runs, the env file apart. -/
structure CanaryHost where
  /-- `sys.executable` -/
  executable : String
  /-- `sys.version.split()[0]` -/
  version : String
  /-- `PIN.json` under the root of a chain, if there is one. -/
  pin : String → Option Pin
  /-- The files under the root of a chain. -/
  tree : String → FileTree
  /-- The class of what importing a module raises. -/
  importError : String → Option String
  /-- The path of a board's database, and how many tasks and poller tasks it has. -/
  board : String → Except Exc (String × Nat × Nat)
  /-- The test suite of a chain, if it has one. -/
  suite : String → Option Completed
  isFile : String → Bool
  /-- `systemd-analyze verify` of the unit files. -/
  verify : Completed
  /-- `st_mode & 0o777` of a file. -/
  mode : String → Nat
  /-- The answer to a request for the head of a URL: its `Content-Range`. -/
  contentRange : String → String → Except Exc String
  /-- `repr` of a list of texts. -/
  repr : List String → String

namespace CanaryHost

variable (host : CanaryHost)

/-! ## The checks -/

/-- `CHAIN_ROOT` -/
def chainRoot (environ : Mapping String) : String :=
  (environ.lookup "CHAIN_ROOT").getD "/home/alexandre/.hermes/runtime/chain/477b28e4"

/-- `CHAIN_PIN` -/
def chainPin (environ : Mapping String) : String :=
  (environ.lookup "CHAIN_PIN").getD pinnedCommit

/-- 1 and 2: the interpreter and the home. -/
def homeChecks (environ : Mapping String) : List Verdict :=
  [⟨"interpreter_is_install_venv", containsText host.executable "/installs/" &&
      containsText host.executable "/venv/bin/python", host.executable⟩,
    ⟨"python_major_is_3_14", startsWith host.version "3.14", host.version⟩,
    ⟨"hermes_home_explicit_root", (environ.lookup "HERMES_HOME").getD "" = hermesRoot,
      (environ.lookup "HERMES_HOME").getD "<unset>"⟩]

/-- 3 and 4: the pin of the chain. -/
def pinChecks (digest : Digest) (environ : Mapping String) : List Verdict :=
  (chainPinChecks digest (chainRoot environ) (chainPin environ) (host.tree (chainRoot environ))
    (host.pin (chainRoot environ))).map fun c => ⟨c.label, c.ok, c.detail.text host.repr⟩

/-- The modules a tick imports. -/
def imports : List String :=
  ["hermes_cli", "hermes_cli.kanban_db", "hermes_cli.kanban_db_connect", "hermes_agent_runtime",
    "hermes_agent_runtime.orchestrator", "hermes_agent_runtime.poller",
    "hermes_agent_runtime.selector", "hermes_agent_runtime.adapter",
    "hermes_agent_runtime.kanban", "hermes_agent_runtime.payloads",
    "hermes_agent_runtime.supabase"]

/-- The imports, and 5: the board. -/
def boardChecks (environ : Mapping String) : List Verdict :=
  let bad := imports.filterMap fun name =>
    (host.importError name).map fun typeName => name ++ "(" ++ typeName ++ ")"
  let failing := if bad = [] then "" else " failing=" ++ host.repr bad
  ⟨"imports", bad = [], toString (imports.length - bad.length) ++ "/" ++
      toString imports.length ++ " OK" ++ failing⟩ ::
    match host.board ((environ.lookup "HERMES_KANBAN_BOARD").getD "lolcoach") with
    | .error exc => [⟨"board_read", false, exc.typeName ++ ": " ++ exc.message⟩]
    | .ok (path, total, residue) =>
        [⟨"board_read", 0 < total, "db=" ++ path ++ " tasks=" ++ toString total ++
            " poller_residue=" ++ toString residue⟩,
          ⟨"board_is_shared_path", containsText path "/.hermes/kanban/boards/", path⟩]

/-- `stderr or stdout` -/
def output (done : Completed) : List Char :=
  strip isSpace ((truthy (some done.stderr)).getD done.stdout).toList

/-- 6: the test suite of the chain. -/
def suiteChecks (environ : Mapping String) : List Verdict :=
  match host.suite (chainRoot environ) with
  | none => [⟨"chain_suite", false, "missing " ++ chainRoot environ ++ "/tests"⟩]
  | some done =>
      let detail := match (splitlines (output done)).getLast? with
        | some line => String.ofList line
        | none => "rc=" ++ toString done.returncode
      [⟨"chain_suite", done.returncode = 0, detail⟩]

/-- `UNIT_FILES`: their directories and names. -/
def unitFiles : List (String × String) :=
  ["/home/alexandre/.hermes/runtime/poller", "/home/alexandre/.config/systemd/user"].flatMap
    fun dir => [(dir, "hermes-runtime-poller.service"), (dir, "hermes-runtime-poller.timer")]

/-- 7: the unit files. -/
def unitChecks : List Verdict :=
  let present := unitFiles.map fun (dir, name) =>
    (⟨"unit_file_present[" ++ name ++ "]", host.isFile (dir ++ "/" ++ name),
      dir ++ "/" ++ name⟩ : Verdict)
  if present.all (·.ok) then
    let said := output host.verify
    present ++ [⟨"systemd_analyze_verify", host.verify.returncode = 0,
      if said = [] then "OK" else String.ofList said⟩]
  else present

/-- `oct(mode)` -/
def octText (mode : Nat) : String := "0o" ++ String.ofList (Nat.toDigits 8 mode)

/-- The key of a line of an env file. -/
def lineKey (raw : List Char) : Option String :=
  let line := strip isSpace raw
  if line ≠ [] && line.head? ≠ some '#' && '=' ∈ line then
    some (String.ofList (strip isSpace (line.takeWhile (· ≠ '='))))
  else none

/-- 8: the env file. -/
def secretChecks (files : Files) (environ : Mapping String) : Except Exc (List Verdict) :=
  let path := envFilePath environ
  if host.isFile path then do
    let text ← readText files path
    let keys := (splitlines text).filterMap lineKey
    let mode := octText (host.mode path)
    let missing := sortedStrings (requiredKeys.filter (· ∉ keys))
    pure [⟨"secret_file_mode", mode = "0o600", path ++ " mode=" ++ mode⟩,
      ⟨"secret_keys_present", requiredKeys.all (· ∈ keys), "missing=" ++ host.repr missing⟩]
  else pure [⟨"secret_file_mode", false, "missing " ++ path⟩]

/-- The request of the network probe, behind the export of the secrets. -/
def probeStore (files : Files) (environ : Mapping String) : Except Exc String := do
  let environ ← exportIntoEnviron files environ
  let url ← getItem environ "SUPABASE_URL"
  let key ← getItem environ "SUPABASE_SERVICE_ROLE_KEY"
  host.contentRange (String.ofList (url.toList.rdropWhile (· = '/')) ++
    "/rest/v1/agent_events?select=id") key

/-- 9: the network probe, where it is asked for. -/
def networkChecks (files : Files) (environ : Mapping String) : List Verdict :=
  if environ.lookup "POLLER_CANARY_NETWORK" = some "1" then
    match host.probeStore files environ with
    | .ok count => [⟨"supabase_readonly", true, "agent_events " ++ count⟩]
    | .error exc => [⟨"supabase_readonly", false, exc.typeName ++ ": " ++ exc.message⟩]
  else []

/-! ## The run -/

/-- `_checks` at the end of `main`. -/
def checks (digest : Digest) (files : Files) (environ : Mapping String) :
    Except Exc (List Verdict) := do
  let secrets ← host.secretChecks files environ
  pure (host.homeChecks environ ++ host.pinChecks digest environ ++ host.boardChecks environ ++
    host.suiteChecks environ ++ host.unitChecks ++ secrets ++ host.networkChecks files environ)

end CanaryHost

end HermesRuntime
