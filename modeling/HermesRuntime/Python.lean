import Mathlib.Algebra.GroupWithZero.Nat
import Mathlib.Data.Int.Log
import Mathlib.Data.List.AList
import Mathlib.Data.List.Sort
import Mathlib.Data.Rat.Floor

/-!
# Python values, strings and exceptions

The part of Python the runtime leans on: the values an event payload may carry, the string
operations the checks are written with, and exceptions. An exception is what `except` clauses
and `type(exc).__name__` can see of it; its message is kept because the orchestrator reports
the message of an `ExecutionBlocked`.

Only `Exception`s are modelled. What a `KeyboardInterrupt` does is outside every `except
Exception` of the sources.
-/

namespace HermesRuntime

/-! ## Values -/

/-- A float: the decimal digits `mantissa * 10 ^ -scale` its `repr` shows, or not a number. They
are written out also where `repr` gives an exponent, and the sign of a zero is left out. -/
inductive PyFloat where
  | nan
  | inf (negative : Bool)
  | finite (mantissa : Int) (scale : Nat)
  deriving DecidableEq, Repr

/-- The class of a value the checks never look into. -/
inductive PyClass where
  | bytes | list | tuple | set | frozenset | mapping | hashable | unhashable
  deriving DecidableEq, Repr

/-- A Python value. `object` stands for everything without a constructor of its own: its class
and the text its contents carry. -/
inductive PyVal where
  | none
  | str (s : String)
  | bool (b : Bool)
  | int (n : Int)
  | float (x : PyFloat)
  | object (cls : PyClass) (text : String)
  deriving DecidableEq, Repr

/-- A `Mapping[str, …]` in iteration order. -/
abbrev Mapping (β : Type) : Type := AList fun _ : String => β

/-- Build a mapping from pairs whose keys are visibly different. -/
abbrev Mapping.mk {β : Type} (items : List (Sigma fun _ : String => β))
    (h : (items.map Sigma.fst).Nodup := by simp) : Mapping β := ⟨items, h⟩

namespace Mapping

variable {β : Type}

/-- The entries of a `dict` after `d[key] = value`: a key that is there keeps its place. -/
def setEntries (entries : List (Sigma fun _ : String => β)) (key : String) (value : β) :
    List (Sigma fun _ : String => β) :=
  if key ∈ entries.map Sigma.fst then
    entries.map fun e => if e.1 = key then ⟨key, value⟩ else e
  else entries ++ [⟨key, value⟩]

theorem keys_setEntries (entries : List (Sigma fun _ : String => β)) (key : String) (value : β) :
    (setEntries entries key value).map Sigma.fst =
      if key ∈ entries.map Sigma.fst then entries.map Sigma.fst
      else entries.map Sigma.fst ++ [key] := by
  unfold setEntries
  split
  · rw [List.map_map]
    refine List.map_congr_left fun e _ => ?_
    by_cases he : e.1 = key
    · simp [he]
    · simp [he]
  · simp

/-- `d[key] = value` -/
def set (m : Mapping β) (key : String) (value : β) : Mapping β where
  entries := setEntries m.entries key value
  nodupKeys := by
    have hnodup : (m.entries.map Sigma.fst).Nodup := m.nodupKeys
    show ((setEntries m.entries key value).map Sigma.fst).Nodup
    rw [keys_setEntries]
    split
    · exact hnodup
    · rename_i hnew
      exact List.nodup_append.2 ⟨hnodup, List.nodup_singleton _, fun k hk k' hk' heq =>
        hnew (by rw [← List.mem_singleton.1 hk', ← heq]; exact hk)⟩

theorem mem_set {m : Mapping β} {key : String} {value : β} {e : Sigma fun _ : String => β} :
    e ∈ (m.set key value).entries ↔ e = ⟨key, value⟩ ∨ (e ∈ m.entries ∧ e.1 ≠ key) := by
  show e ∈ setEntries m.entries key value ↔ _
  unfold setEntries
  split
  · rename_i hkey
    rw [List.mem_map]
    constructor
    · rintro ⟨e', he', rfl⟩
      by_cases hk : e'.1 = key
      · exact Or.inl (by rw [if_pos hk])
      · rw [if_neg hk]
        exact Or.inr ⟨he', hk⟩
    · rintro (rfl | ⟨he, hk⟩)
      · obtain ⟨e', he', hk⟩ := List.mem_map.1 hkey
        exact ⟨e', he', by rw [if_pos hk]⟩
      · exact ⟨e, he, if_neg hk⟩
  · rename_i hkey
    have hne : e ∈ m.entries → e.1 ≠ key := fun he heq =>
      hkey (heq ▸ List.mem_map_of_mem he)
    rw [List.mem_append, List.mem_singleton]
    tauto

theorem mem_keys {m : Mapping β} {key : String} :
    key ∈ m.keys ↔ ∃ e ∈ m.entries, e.1 = key := List.mem_map

theorem mem_keys_set {m : Mapping β} {key key' : String} {value : β} :
    key' ∈ (m.set key value).keys ↔ key' = key ∨ key' ∈ m.keys := by
  rw [mem_keys, mem_keys]
  constructor
  · rintro ⟨e, he, rfl⟩
    rcases mem_set.1 he with rfl | ⟨he, -⟩
    · exact Or.inl rfl
    · exact Or.inr ⟨e, he, rfl⟩
  · intro h
    by_cases hk : key' = key
    · exact ⟨⟨key, value⟩, mem_set.2 (Or.inl rfl), hk.symm⟩
    · obtain ⟨e, he, rfl⟩ := h.resolve_left hk
      exact ⟨e, mem_set.2 (Or.inr ⟨he, hk⟩), rfl⟩

/-- `d.update(items)` -/
def update (m items : Mapping β) : Mapping β :=
  items.entries.foldl (fun m e => m.set e.1 e.2) m

theorem mem_update {m items : Mapping β} {e : Sigma fun _ : String => β} :
    e ∈ (m.update items).entries ↔
      e ∈ items.entries ∨ (e ∈ m.entries ∧ e.1 ∉ items.entries.map Sigma.fst) := by
  have hnodup : (items.entries.map Sigma.fst).Nodup := items.nodupKeys
  unfold update
  generalize items.entries = entries at hnodup ⊢
  induction entries generalizing m with
  | nil => simp
  | cons x entries ih =>
      rw [List.map_cons, List.nodup_cons] at hnodup
      rw [List.foldl_cons]
      refine (ih (m := m.set x.1 x.2) hnodup.2).trans ?_
      rw [mem_set, List.mem_cons, List.map_cons, List.mem_cons]
      have hx : e = x → e.1 ∉ entries.map Sigma.fst := fun heq => heq ▸ hnodup.1
      tauto

theorem mem_keys_update {m items : Mapping β} {key : String} :
    key ∈ (m.update items).keys ↔ key ∈ items.keys ∨ key ∈ m.keys := by
  rw [mem_keys]
  constructor
  · rintro ⟨e, he, rfl⟩
    rcases mem_update.1 he with he | ⟨he, -⟩
    · exact Or.inl (List.mem_map_of_mem he)
    · exact Or.inr (List.mem_map_of_mem he)
  · intro h
    by_cases hk : key ∈ items.keys
    · obtain ⟨e, he, rfl⟩ := mem_keys.1 hk
      exact ⟨e, mem_update.2 (Or.inl he), rfl⟩
    · obtain ⟨e, he, rfl⟩ := mem_keys.1 (h.resolve_left hk)
      exact ⟨e, mem_update.2 (Or.inr ⟨he, hk⟩), rfl⟩

theorem lookup_set (m : Mapping β) (key key' : String) (value : β) :
    (m.set key value).lookup key' = if key' = key then some value else m.lookup key' := by
  by_cases hk : key' = key
  · rw [if_pos hk, hk]
    exact AList.mem_lookup_iff.2 (mem_set.2 (Or.inl rfl))
  · rw [if_neg hk]
    refine Option.ext fun v => ?_
    rw [← Option.mem_def, ← Option.mem_def, AList.mem_lookup_iff, AList.mem_lookup_iff,
      mem_set]
    constructor
    · intro h
      rcases h with h | ⟨h, -⟩
      · cases h
        exact absurd rfl hk
      · exact h
    · intro h
      exact Or.inr ⟨h, hk⟩

/-- What a mapping that is filled key by key holds. -/
theorem mem_foldl_set {α : Type} (key : α → String) (value : α → β) {xs : List α}
    (h : (xs.map key).Nodup) {e : Sigma fun _ : String => β} :
    e ∈ (xs.foldl (fun m x => m.set (key x) (value x)) (∅ : Mapping β)).entries ↔
      ∃ x ∈ xs, e = ⟨key x, value x⟩ := by
  have hfold : ∀ m : Mapping β,
      e ∈ (xs.foldl (fun m x => m.set (key x) (value x)) m).entries ↔
        (∃ x ∈ xs, e = ⟨key x, value x⟩) ∨ (e ∈ m.entries ∧ e.1 ∉ xs.map key) := by
    induction xs with
    | nil => simp
    | cons x xs ih =>
        intro m
        rw [List.map_cons, List.nodup_cons] at h
        rw [List.foldl_cons, ih h.2, mem_set, List.map_cons, List.mem_cons]
        have hx : e = ⟨key x, value x⟩ → e.1 ∉ xs.map key := fun heq => heq ▸ h.1
        simp only [List.mem_cons, exists_eq_or_imp]
        generalize (∃ x ∈ xs, e = ⟨key x, value x⟩) = later
        tauto
  rw [hfold ∅]
  simp

theorem lookup_update (m items : Mapping β) (key : String) :
    (m.update items).lookup key = (items.lookup key).or (m.lookup key) := by
  refine Option.ext fun v => ?_
  rw [← Option.mem_def, AList.mem_lookup_iff, mem_update]
  cases hitem : items.lookup key with
  | some w =>
      have hin : key ∈ items.entries.map Sigma.fst :=
        List.mem_map_of_mem (AList.mem_lookup_iff.1 hitem)
      rw [← AList.mem_lookup_iff, Option.mem_def, hitem, Option.some_or]
      exact or_iff_left fun h => h.2 hin
  | none =>
      have hout : key ∉ items.entries.map Sigma.fst := fun h =>
        AList.lookup_eq_none.1 hitem (AList.mem_keys.2 h)
      rw [← AList.mem_lookup_iff, Option.mem_def, hitem, Option.none_or, ← AList.mem_lookup_iff,
        Option.mem_def]
      constructor
      · rintro (h | h)
        · cases h
        · exact h.1
      · exact fun h => Or.inr ⟨h, hout⟩

end Mapping

/-- What a caller may hand over as a payload: `None`, a mapping, or anything else. -/
inductive RawPayload where
  | none
  | mapping (items : Mapping PyVal)
  | other
  deriving DecidableEq

/-! ## Exceptions -/

/-- The fields of an `ExecutionEventError`. -/
structure EventError where
  errorType : String
  events : List (String × RawPayload)
  deriving DecidableEq

/-- An exception, as `isinstance`, `type(exc).__name__` and `str(exc)` see it. -/
structure Exc where
  /-- `type(exc).__name__` -/
  typeName : String
  /-- `str(exc)` -/
  message : String
  /-- `isinstance(exc, ExecutionBlocked)` -/
  isBlocked : Bool := false
  /-- `isinstance(exc, RunConflict)` -/
  isConflict : Bool := false
  /-- The fields of the exception when `isinstance(exc, ExecutionEventError)`. -/
  event : Option EventError := none
  deriving DecidableEq

namespace Exc

def executionBlocked (message : String) : Exc :=
  { typeName := "ExecutionBlocked", message, isBlocked := true }

def runConflict (message : String) : Exc :=
  { typeName := "RunConflict", message, isConflict := true }

def executionEventError (errorType : String) (events : List (String × RawPayload)) : Exc :=
  { typeName := "ExecutionEventError", message := errorType, event := some ⟨errorType, events⟩ }

def runtimeError (message : String) : Exc := { typeName := "RuntimeError", message }

def payloadValidationError (message : String) : Exc :=
  { typeName := "PayloadValidationError", message }

def valueError (message : String) : Exc := { typeName := "ValueError", message }

def typeError (message : String) : Exc := { typeName := "TypeError", message }

end Exc

/-! ## Strings -/

/-- `s.startswith(p)` -/
def startsWith (s p : String) : Bool := p.toList.isPrefixOf s.toList

/-- `s.removeprefix(p)` -/
def removePrefix (s p : String) : String :=
  if startsWith s p then String.ofList (s.toList.drop p.toList.length) else s

/-- `word in s` -/
def containsText (s word : String) : Bool := s.toList.tails.any (word.toList.isPrefixOf ·)

/-- `str.lower` on one character, for searches with ASCII words: of the characters outside
ASCII only the Kelvin sign and the dotted capital I lower to something with an ASCII letter. -/
def lowerChar (c : Char) : List Char :=
  if c = '\u212a' then ['k'] else if c = '\u0130' then ['i', '\u0307'] else [c.toLower]

/-- `s.lower()` -/
def lower (s : String) : String := String.ofList (s.toList.flatMap lowerChar)

/-- `sorted(xs)` -/
def sortedStrings (xs : List String) : List String := xs.insertionSort (· ≤ ·)

/-! ## `json.dumps` -/

/-- Four hexadecimal digits, as in `\uXXXX`. -/
def hex4 (n : Nat) : List Char :=
  [n / 4096 % 16, n / 256 % 16, n / 16 % 16, n % 16].map Nat.digitChar

/-- One character inside a JSON string, with `ensure_ascii`. -/
def escapeChar (c : Char) : List Char :=
  if c = '"' then ['\\', '"']
  else if c = '\\' then ['\\', '\\']
  else if c = '\n' then ['\\', 'n']
  else if c = '\r' then ['\\', 'r']
  else if c = '\t' then ['\\', 't']
  else if c.toNat = 12 then ['\\', 'f']
  else if c.toNat = 8 then ['\\', 'b']
  else if 32 ≤ c.toNat ∧ c.toNat ≤ 126 then [c]
  else if c.toNat < 65536 then ['\\', 'u'] ++ hex4 c.toNat
  else
    let v := c.toNat - 65536
    ['\\', 'u'] ++ hex4 (55296 + v / 1024) ++ ['\\', 'u'] ++ hex4 (56320 + v % 1024)

/-- A JSON string. -/
def jsonString (s : String) : String :=
  String.ofList (['"'] ++ s.toList.flatMap escapeChar ++ ['"'])

/-- The digits of `mantissa * 10 ^ -scale`. -/
def decimalText (mantissa : Int) (scale : Nat) : String :=
  let digits := Nat.toDigits 10 mantissa.natAbs
  let padded := List.replicate (scale + 1 - digits.length) '0' ++ digits
  let whole := padded.take (padded.length - scale)
  let fraction := padded.drop (padded.length - scale)
  String.ofList ((if mantissa < 0 then ['-'] else []) ++ whole ++
    if scale = 0 then [] else '.' :: fraction)

/-- A scalar as `json.dumps` writes it; what it cannot serialize raises `TypeError`. -/
def jsonScalar : PyVal → Except Exc String
  | .none => .ok "null"
  | .str s => .ok (jsonString s)
  | .bool b => .ok (if b then "true" else "false")
  | .int n => .ok (decimalText n 0)
  | .float .nan => .ok "NaN"
  | .float (.inf negative) => .ok (if negative then "-Infinity" else "Infinity")
  | .float (.finite m s) => .ok (if s = 0 then decimalText m 0 ++ ".0" else decimalText m s)
  | .object cls text =>
      match cls with
      | .list | .tuple | .mapping => .ok text
      | _ => .error (.typeError "Object is not JSON serializable")

/-- `json.dumps(dict(payload), sort_keys=True, separators=(",", ":"))` -/
def jsonDumps (payload : Mapping PyVal) : Except Exc String := do
  let items ← (sortedStrings payload.keys).mapM fun key => do
    let value ← jsonScalar ((payload.lookup key).getD .none)
    pure (jsonString key ++ ":" ++ value)
  pure ("\x7b" ++ ",".intercalate items ++ "\x7d")

/-! ## Equality of dictionary keys -/

/-- A hashable value up to Python's `==`, under which `True`, `1` and `1.0` are one key. -/
inductive PyKey where
  | none
  | str (s : String)
  | num (q : ℚ)
  | nonFinite (x : PyFloat)
  | object (cls : PyClass) (text : String)
  deriving DecidableEq

/-- The integer nearest to `q`, the even one of two. -/
def roundHalfEven (q : ℚ) : ℤ :=
  let below := ⌊q⌋
  let rest := q - below
  if rest < 1 / 2 ∨ (rest = 1 / 2 ∧ 2 ∣ below) then below else below + 1

/-- The double nearest to `q`, which is what a float with these digits is: 53 bits, the last of
them no less than `2 ^ -1074`. -/
def nearestDouble (q : ℚ) : ℚ :=
  let ulp : ℚ := 2 ^ max (Int.log 2 |q| - 52) (-1074)
  roundHalfEven (q / ulp) * ulp

/-- The key a value is in a `set`; unhashable values raise `TypeError`. -/
def PyVal.hashKey : PyVal → Except Exc PyKey
  | .none => .ok .none
  | .str s => .ok (.str s)
  | .bool b => .ok (.num (if b then 1 else 0))
  | .int n => .ok (.num n)
  | .float (.finite m s) => .ok (.num (nearestDouble (m / 10 ^ s)))
  | .float x => .ok (.nonFinite x)
  | .object cls text =>
      match cls with
      | .bytes | .tuple | .frozenset | .hashable => .ok (.object cls text)
      | _ => .error (.typeError "unhashable type")

example : (PyVal.float (.finite (10 ^ 23) 0)).hashKey ≠ (PyVal.int (10 ^ 23)).hashKey := by
  decide +kernel

end HermesRuntime
