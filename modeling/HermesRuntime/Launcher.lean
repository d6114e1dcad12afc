import HermesRuntime.ChainPin
import HermesRuntime.PollerEnv

/-!
# The launcher (`run_poller.sh`)

A shell script starts everything of the poller. It pins the home, finds the interpreter and the
pinned chain, and refuses a tick inside a confined shell. What it starts gets the variables it was
given itself, with the values it has set, and those it exports.
-/

namespace HermesRuntime

/-! ## The shell -/

/-- The variables of a shell script, and which of them the programs it starts get. -/
structure Shell where
  vars : Mapping String
  exported : List String

namespace Shell

/-- A shell as it is started, but for the variables it sets on its own (`PWD`, `_`). -/
def start (environ : Mapping String) : Shell := ⟨environ, environ.keys⟩

/-- `${name:-default}` -/
def expand (sh : Shell) (name default : String) : String :=
  (truthy (sh.vars.lookup name)).getD default

/-- `name=value`: an exported variable stays exported. -/
def assign (sh : Shell) (name value : String) : Shell :=
  { sh with vars := sh.vars.set name value }

/-- `name="${name:-default}"` -/
def assignDefault (sh : Shell) (name default : String) : Shell :=
  sh.assign name (sh.expand name default)

/-- `export name` -/
def exporting (sh : Shell) (name : String) : Shell :=
  { sh with exported := name :: sh.exported }

/-- The environment of what the script starts. -/
def environ (sh : Shell) : Mapping String where
  entries := sh.vars.entries.filter fun e => e.1 ∈ sh.exported
  nodupKeys := sh.vars.nodupKeys.sublist List.filter_sublist

end Shell

/-- What the launcher finds on its host. -/
structure Host where
  /-- `$0` -/
  script : String
  /-- The directory of the script. -/
  scriptDir : String
  /-- The text of a file that is there. -/
  readFile : String → Option String
  executable : String → Bool

/-! ## The interpreter -/

/-- The default of `HERMES_ROOT`, and the `EXPECTED_HOME` of the canary. -/
def hermesRoot : String := "/home/alexandre/.hermes"

/-- The variables that do not depend on the interpreter. -/
def setRoots (environ : Mapping String) : Shell :=
  let sh := (Shell.start environ).assignDefault "HERMES_ROOT" hermesRoot
  let root := sh.expand "HERMES_ROOT" ""
  let sh := (sh.assign "HERMES_HOME" root).exporting "HERMES_HOME"
  let sh := sh.assignDefault "HERMES_CHECKOUT" (root ++ "/hermes-agent")
  let sh := sh.assignDefault "CHAIN_PIN" pinnedCommit
  let sh := sh.assignDefault "CHAIN_ROOT" (root ++ "/runtime/chain/477b28e4")
  sh.assignDefault "CHAIN_SRC" (sh.expand "CHAIN_ROOT" "" ++ "/src")

/-- The variables set behind `resolve_interpreter`. -/
def setPaths (host : Host) (sh : Shell) (python : String) : Shell :=
  let sh := sh.assign "POLLER_PYTHON" python
  let path := sh.expand "HERMES_CHECKOUT" "" ++ ":" ++ sh.expand "CHAIN_SRC" "" ++
    ((truthy (sh.vars.lookup "PYTHONPATH")).map (":" ++ ·)).getD ""
  let sh := (sh.assign "PYTHONPATH" path).exporting "PYTHONPATH"
  let sh := (sh.assignDefault "HERMES_KANBAN_BOARD" "lolcoach").exporting "HERMES_KANBAN_BOARD"
  (sh.exporting "CHAIN_PIN").assign "PROBE_DIR" host.scriptDir

end HermesRuntime
