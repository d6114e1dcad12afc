import HermesRuntime.PollerEnv

/-!
# The bound of a tick (`poller_dispatch_guard.py`, `poller_tick.py`)

`POLLER_MAX_DISPATCH_PER_TICK` says how many issues a tick hands out. It is read by `int`, which
takes more than the digits of ASCII: any decimal digits of Unicode, a sign, and single underscores
between the digits.

* `maxDispatchPerTick` — the setting, or why there is none.
* `resolveBound` — the bound a tick goes on with.
-/

namespace HermesRuntime

/-! ## `int` -/

/-- The zeros of the decimal digits of Unicode 16; the others follow theirs. -/
def decimalZeros : List Nat := [
  0x30, 0x660, 0x6f0, 0x7c0, 0x966, 0x9e6, 0xa66, 0xae6, 0xb66, 0xbe6, 0xc66, 0xce6, 0xd66, 0xde6,
  0xe50, 0xed0, 0xf20, 0x1040, 0x1090, 0x17e0, 0x1810, 0x1946, 0x19d0, 0x1a80, 0x1a90, 0x1b50,
  0x1bb0, 0x1c40, 0x1c50, 0xa620, 0xa8d0, 0xa900, 0xa9d0, 0xa9f0, 0xaa50, 0xabf0, 0xff10, 0x104a0,
  0x10d30, 0x10d40, 0x11066, 0x110f0, 0x11136, 0x111d0, 0x112f0, 0x11450, 0x114d0, 0x11650,
  0x116c0, 0x116d0, 0x116da, 0x11730, 0x118e0, 0x11950, 0x11bf0, 0x11c50, 0x11d50, 0x11da0,
  0x11f50, 0x16130, 0x16a60, 0x16ac0, 0x16b50, 0x16d70, 0x1ccf0, 0x1d7ce, 0x1d7d8, 0x1d7e2,
  0x1d7ec, 0x1d7f6, 0x1e140, 0x1e2f0, 0x1e4f0, 0x1e5f1, 0x1e950, 0x1fbf0]

/-- `unicodedata.decimal` -/
def decimalDigit (c : Char) : Option Nat :=
  (decimalZeros.find? fun first => first ≤ c.toNat && c.toNat < first + 10).map (c.toNat - ·)

/-- The digits of a text that is nothing but digits, with single underscores between them;
`afterDigit` says whether a digit came just before. -/
def digitRun (afterDigit : Bool) : List Char → Option (List Nat)
  | [] => if afterDigit then some [] else none
  | c :: rest =>
      if afterDigit && c = '_' then digitRun false rest
      else
        match decimalDigit c with
        | some digit => (digitRun true rest).map (digit :: ·)
        | none => none

/-- `sys.int_info.default_max_str_digits` -/
def maxStrDigits : Nat := 4300

/-- The number with these digits, the most significant first. -/
def numberOf (digits : List Nat) : Nat := digits.foldl (fun n digit => 10 * n + digit) 0

/-- The number of a text without a sign. -/
def parseNat (text : List Char) : Option Nat := do
  let digits ← digitRun false text
  if maxStrDigits < digits.length then none else some (numberOf digits)

/-- `int(text)`, of a text without white space around it; `none` where it raises `ValueError`. -/
def parseInt : List Char → Option Int
  | '+' :: text => (parseNat text).map fun n => (n : Int)
  | '-' :: text => (parseNat text).map fun n => -(n : Int)
  | text => (parseNat text).map fun n => (n : Int)

example : parseInt "1_000".toList = some 1000 := by decide

/-! ## The setting -/

/-- `DEFAULT_MAX_DISPATCH_PER_TICK` -/
def defaultMaxDispatchPerTick : Int := 1

/-- `BOUND_ENV_VAR` -/
def boundEnvVar : String := "POLLER_MAX_DISPATCH_PER_TICK"

/-- Why a setting is no bound. -/
inductive BoundError where
  | notInteger (raw : String)
  | tooSmall (value : Int)
  deriving DecidableEq

/-- The message of the `ValueError`; `repr` shows a text as Python does. -/
def BoundError.text (repr : String → String) : BoundError → String
  | .notInteger raw => boundEnvVar ++ "=" ++ repr raw ++ " is not an integer"
  | .tooSmall value => boundEnvVar ++ "=" ++ decimalText value 0 ++ " must be >= 1"

/-- `max_dispatch_per_tick` -/
def maxDispatchPerTick (environ : Mapping String) : Except BoundError Int :=
  match environ.lookup boundEnvVar with
  | none => .ok defaultMaxDispatchPerTick
  | some raw =>
      let text := strip isSpace raw.toList
      if text = [] then .ok defaultMaxDispatchPerTick
      else
        match parseInt text with
        | none => .error (.notInteger raw)
        | some value => if value < 1 then .error (.tooSmall value) else .ok value

/-- `_resolve_bound` -/
def resolveBound (environ : Mapping String) : Int :=
  match maxDispatchPerTick environ with
  | .ok bound => bound
  -- the message goes to the log
  | .error _ => defaultMaxDispatchPerTick

/-- **A tick's bound is a bound**, whatever the setting: `select_with_guard` does not raise. -/
theorem one_le_resolveBound (environ : Mapping String) : 1 ≤ resolveBound environ := by
  unfold resolveBound maxDispatchPerTick
  cases environ.lookup boundEnvVar with
  | none => decide
  | some raw =>
      dsimp only
      by_cases htext : strip isSpace raw.toList = []
      · rw [if_pos htext]
        decide
      · rw [if_neg htext]
        cases parseInt (strip isSpace raw.toList) with
        | none => exact le_refl (1 : Int)
        | some value =>
            dsimp only
            by_cases hvalue : value < 1
            · rw [if_pos hvalue]
              exact le_refl (1 : Int)
            · rw [if_neg hvalue]
              exact not_lt.1 hvalue

end HermesRuntime
