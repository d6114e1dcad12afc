import HermesRuntime.Python
import Mathlib.Data.Finmap
import Mathlib.Data.Finset.Sort
import Mathlib.Data.String.Basic
import Mathlib.Order.Lex

/-!
# The pin of the chain (`gen_pin.py`, `canary_readonly.py`)

`gen_pin` walks the extracted chain and writes the digest of each file to `PIN.json`; the canary
goes through what was written and compares it with the files it finds.
-/

namespace HermesRuntime

/-! ## Files -/

/-- The name of a file or of a directory. -/
def ValidName (name : String) : Prop :=
  name ≠ "" ∧ name ≠ "." ∧ name ≠ ".." ∧ '/' ∉ name.toList

/-- The files under `CHAIN_ROOT`, each by the names on its way from there. The pin itself is kept
apart. -/
@[ext] structure FileTree where
  files : Finmap fun _ : List String => List UInt8
  valid : ∀ path ∈ files, path ≠ [] ∧ ∀ name ∈ path, ValidName name
  no_pin : ["PIN.json"] ∉ files

/-- `sorted(CHAIN_ROOT.rglob("*"))`, of which only the files count: their paths and bytes. -/
def FileTree.walk (tree : FileTree) : List (List String × List UInt8) :=
  (tree.files.keys.sort (· ≤ ·)).filterMap fun path =>
    (tree.files.lookup path).map fun bytes => (path, bytes)

/-- `str(path)` of a relative path. -/
def pathText (path : List String) : String := "/".intercalate path

/-- The names on the way to `CHAIN_ROOT / rel`. -/
def pathParts (rel : String) : List String :=
  ((rel.toList.splitOn '/').map String.ofList).filter fun name => name ≠ "" && name ≠ "."

/-- `hashlib.sha256(…).hexdigest()` -/
structure Digest where
  hexdigest : List UInt8 → String
  length_eq : ∀ bytes, (hexdigest bytes).length = 64

/-! ## `gen_pin` -/

/-- `COMMIT`, and the default of `CHAIN_PIN` -/
def pinnedCommit : String := "477b28ede946a6bff5ae562339e31b999015518e"

/-- What the canary reads of `PIN.json`. -/
structure Pin where
  commit : Option String
  files : Option (Mapping String)

/-- The pin `main` of `gen_pin` writes. -/
def genPin (digest : Digest) (tree : FileTree) : Pin where
  commit := some pinnedCommit
  files := some <| (tree.walk.filter fun e => e.1.getLast? ≠ some "PIN.json").foldl
    (fun files e => files.set (pathText e.1) (digest.hexdigest e.2)) ∅

/-! ## The canary -/

/-- The details of the checks on the pin. -/
inductive PinDetail where
  | missing (pinFile : String)
  | commit (found : String)
  | files (count : Nat) (mismatched : List String)
  deriving DecidableEq

/-- The text of a detail; `repr` writes a list as Python does. -/
def PinDetail.text (repr : List String → String) : PinDetail → String
  | .missing pinFile => "missing " ++ pinFile
  | .commit found => found
  | .files count mismatched => toString count ++ " files, mismatched=" ++ repr mismatched

/-- An entry of `_checks`. -/
structure Check where
  label : String
  ok : Bool
  detail : PinDetail
  deriving DecidableEq

/-- `sha256(CHAIN_ROOT / rel)` of the canary. -/
def canarySha256 (digest : Digest) (tree : FileTree) (rel : String) : String :=
  match tree.files.lookup (pathParts rel) with
  | some bytes => digest.hexdigest bytes
  | none => "missing"

/-- The checks of the canary on the pin of `chainRoot`. -/
def chainPinChecks (digest : Digest) (chainRoot chainPin : String) (tree : FileTree) :
    Option Pin → List Check
  | none => [⟨"chain_pin_commit", false, .missing (chainRoot ++ "/PIN.json")⟩]
  | some pin =>
      let files := pin.files.getD ∅
      let mismatched :=
        (files.entries.filter fun e => canarySha256 digest tree e.1 ≠ e.2).map Sigma.fst
      [⟨"chain_pin_commit", pin.commit = some chainPin, .commit (pin.commit.getD "?")⟩,
        ⟨"chain_pin_files", mismatched = [], .files files.entries.length mismatched⟩]

end HermesRuntime
