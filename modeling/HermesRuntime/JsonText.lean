import HermesRuntime.Lib.PrefixCode
import HermesRuntime.Python
import Mathlib.Data.List.Sort
import Mathlib.Data.String.Basic

/-!
# `json.dumps` tells payloads apart

With sorted keys and `ensure_ascii` two mappings of scalars have one text exactly when they have
the same entries, in whatever order: every part of the text can be told from what follows it.

* `unambiguous_escapeChar` — characters inside a string, by a reader for them.
* `unambiguous_jsonString`, `unambiguous_scalar` — strings and scalars.
* `jsonDumps_eq_iff` — payloads of scalars.
-/

namespace HermesRuntime

open Codes

/-! ## Characters -/

/-- The value of a hexadecimal digit. -/
def hexValue (c : Char) : Nat := if c.isDigit then c.toNat - 48 else c.toNat - 87

/-- Read four hexadecimal digits. -/
def readHex4 : List Char → Option (Nat × List Char)
  | a :: b :: c :: d :: rest =>
      some (4096 * hexValue a + 256 * hexValue b + 16 * hexValue c + hexValue d, rest)
  | _ => none

/-- Read what follows `\u`: one unit of UTF-16, or a pair of surrogates. -/
def readUnit (text : List Char) : Option (Char × List Char) :=
  match readHex4 text with
  | some (high, rest) =>
      if 55296 ≤ high ∧ high < 56320 then
        (readHex4 (rest.drop 2)).map fun low =>
          (Char.ofNat (65536 + (high - 55296) * 1024 + (low.1 - 56320)), low.2)
      else some (Char.ofNat high, rest)
  | none => none

/-- The character a short escape stands for. -/
def shortEscape (c : Char) : Char :=
  if c = 'n' then '\n' else if c = 'r' then '\r' else if c = 't' then '\t'
  else if c = 'f' then Char.ofNat 12 else if c = 'b' then Char.ofNat 8 else c

/-- Read one character of a JSON string. -/
def readChar : List Char → Option (Char × List Char)
  | [] => none
  | c :: rest =>
      if c = '\\' then
        match rest with
        | [] => none
        | e :: rest' => if e = 'u' then readUnit rest' else some (shortEscape e, rest')
      else some (c, rest)

theorem hexValue_digitChar {d : Nat} (h : d < 16) : hexValue (Nat.digitChar d) = d := by
  revert d
  decide

theorem readHex4_hex4 {n : Nat} (hn : n < 65536) (x : List Char) :
    readHex4 (hex4 n ++ x) = some (n, x) := by
  have h₁ := hexValue_digitChar (Nat.mod_lt (n / 4096) (show 0 < 16 by decide))
  have h₂ := hexValue_digitChar (Nat.mod_lt (n / 256) (show 0 < 16 by decide))
  have h₃ := hexValue_digitChar (Nat.mod_lt (n / 16) (show 0 < 16 by decide))
  have h₄ := hexValue_digitChar (Nat.mod_lt n (show 0 < 16 by decide))
  show some (4096 * _ + 256 * _ + 16 * _ + _, x) = _
  rw [h₁, h₂, h₃, h₄]
  refine congrArg (fun m => some (m, x)) ?_
  omega

/-- A character is no surrogate. -/
theorem toNat_not_surrogate (c : Char) : c.toNat < 55296 ∨ 57343 < c.toNat ∧ c.toNat < 1114112 :=
  c.valid

theorem readUnit_single {c : Char} (hc : c.toNat < 65536) (x : List Char) :
    readUnit (hex4 c.toNat ++ x) = some (c, x) := by
  have hplain : ¬ (55296 ≤ c.toNat ∧ c.toNat < 56320) := by
    have hvalid := toNat_not_surrogate c
    omega
  unfold readUnit
  rw [readHex4_hex4 hc]
  show (if _ then _ else some (Char.ofNat c.toNat, x)) = _
  rw [if_neg hplain, Char.ofNat_toNat]

theorem readUnit_pair {c : Char} (hc : 65536 ≤ c.toNat) (x : List Char) :
    readUnit (hex4 (55296 + (c.toNat - 65536) / 1024) ++
      (['\\', 'u'] ++ (hex4 (56320 + (c.toNat - 65536) % 1024) ++ x))) = some (c, x) := by
  have hvalid := toNat_not_surrogate c
  have hlow := Nat.mod_lt (c.toNat - 65536) (show 0 < 1024 by decide)
  have hhigh : (c.toNat - 65536) / 1024 < 1024 := by omega
  unfold readUnit
  rw [readHex4_hex4 (by omega)]
  show (if _ then (readHex4 (hex4 _ ++ x)).map _ else _) = _
  rw [if_pos (by omega), readHex4_hex4 (by omega), Option.map_some]
  have hsum : 65536 + (55296 + (c.toNat - 65536) / 1024 - 55296) * 1024 +
      (56320 + (c.toNat - 65536) % 1024 - 56320) = c.toNat := by
    have hdiv := Nat.div_add_mod (c.toNat - 65536) 1024
    omega
  show some (Char.ofNat _, x) = _
  rw [hsum, Char.ofNat_toNat]

/-- **An escaped character is read back.** -/
theorem readChar_escapeChar (c : Char) (x : List Char) :
    readChar (escapeChar c ++ x) = some (c, x) := by
  -- an escape is a backslash and a letter, which the reader tells apart from `u`
  have hshort : ∀ e : Char, e ≠ 'u' → readChar (['\\', e] ++ x) = some (shortEscape e, x) := by
    intro e he
    simp [readChar, he]
  have hcode : ∀ n, c.toNat = n → Char.ofNat n = c := fun n hn => by
    rw [← hn, Char.ofNat_toNat]
  unfold escapeChar
  by_cases hquote : c = '"'
  · rw [if_pos hquote, hshort _ (by decide), hquote]
    rfl
  by_cases hslash : c = '\\'
  · rw [if_neg hquote, if_pos hslash, hshort _ (by decide), hslash]
    rfl
  rw [if_neg hquote, if_neg hslash]
  by_cases hn : c = '\n'
  · rw [if_pos hn, hshort _ (by decide), hn]
    rfl
  rw [if_neg hn]
  by_cases hr : c = '\r'
  · rw [if_pos hr, hshort _ (by decide), hr]
    rfl
  rw [if_neg hr]
  by_cases ht : c = '\t'
  · rw [if_pos ht, hshort _ (by decide), ht]
    rfl
  rw [if_neg ht]
  by_cases hf : c.toNat = 12
  · rw [if_pos hf, hshort _ (by decide), ← hcode 12 hf]
    rfl
  rw [if_neg hf]
  by_cases hb : c.toNat = 8
  · rw [if_pos hb, hshort _ (by decide), ← hcode 8 hb]
    rfl
  rw [if_neg hb]
  by_cases hplain : 32 ≤ c.toNat ∧ c.toNat ≤ 126
  · rw [if_pos hplain]
    simp [readChar, hslash]
  rw [if_neg hplain]
  by_cases hbmp : c.toNat < 65536
  · rw [if_pos hbmp, List.append_assoc]
    simpa [readChar] using readUnit_single hbmp x
  · rw [if_neg hbmp]
    simpa [readChar] using readUnit_pair (Nat.le_of_not_lt hbmp) x

theorem unambiguous_escapeChar : Unambiguous escapeChar fun _ => True :=
  unambiguous_of_read fun c x _ => readChar_escapeChar c x

/-- No escape begins with a quotation mark. -/
theorem escapeChar_ne_quote (c : Char) (x y : List Char) : escapeChar c ++ x ≠ '"' :: y := by
  intro heq
  have hread := readChar_escapeChar c x
  rw [heq] at hread
  cases hread
  cases heq

/-! ## Strings -/

theorem toList_jsonString (s : String) :
    (jsonString s).toList = '"' :: (s.toList.flatMap escapeChar ++ ['"']) := by
  simp [jsonString]

/-- A string ends with its closing quotation mark. -/
theorem unambiguous_jsonString :
    Unambiguous (fun s : String => (jsonString s).toList) fun _ => True := by
  have hchars : Unambiguous (fun cs : List Char => cs.flatMap escapeChar ++ ['"'])
      fun _ => True :=
    unambiguous_escapeChar.flatMap escapeChar_ne_quote (fun _ => trivial) fun _ _ => trivial
  intro s t x y hx hy heq
  simp only [toList_jsonString] at heq
  obtain ⟨hst, hxy⟩ := hchars.cons '"' _ _ _ _ hx hy heq
  exact ⟨String.toList_inj.1 hst, hxy⟩

/-! ## Scalars -/

/-- A string, a boolean, an integer or `None`. -/
def PyVal.IsScalar : PyVal → Prop
  | .none | .str _ | .bool _ | .int _ => True
  | .float _ | .object _ _ => False

instance (v : PyVal) : Decidable v.IsScalar := by
  cases v <;> unfold PyVal.IsScalar <;> infer_instance

/-- The text of an integer. -/
theorem toList_decimalText (n : Int) : (decimalText n 0).toList =
    (if n < 0 then ['-'] else []) ++ Nat.toDigits 10 n.natAbs := by
  have hpad : 0 + 1 - (Nat.toDigits 10 n.natAbs).length = 0 := by
    have hpos := @Nat.length_toDigits_pos 10 n.natAbs
    omega
  simp [decimalText, hpad]

/-- What follows a scalar in an object: the text goes on with no digit. -/
def NoDigit (x : List Char) : Prop := ∀ c ∈ x.head?, c.isDigit = false

theorem unambiguous_digits : Unambiguous (fun n : Nat => Nat.toDigits 10 n) NoDigit := by
  refine unambiguous_span (fun n m heq => ?_) fun n c hc =>
    Nat.isDigit_of_mem_toDigits (by decide) (by decide) hc
  have hvalue := congrArg (Nat.ofDigitChars 10 · 0) heq
  simpa only [Nat.ofDigitChars_ten_toDigits] using hvalue

/-- The digits of a number begin with a digit. -/
theorem toDigits_cons (n : Nat) : ∃ c rest, Nat.toDigits 10 n = c :: rest ∧ c.isDigit = true := by
  obtain ⟨c, rest, heq⟩ := List.exists_cons_of_ne_nil (@Nat.toDigits_ne_nil n 10)
  have hmem : c ∈ Nat.toDigits 10 n := by
    rw [heq]
    exact List.mem_cons_self
  exact ⟨c, rest, heq, Nat.isDigit_of_mem_toDigits (by decide) (by decide) hmem⟩

theorem unambiguous_int : Unambiguous (fun n : Int => (decimalText n 0).toList) NoDigit := by
  -- no number without a sign begins with one
  have hsign : ∀ (n : Nat) (x y : List Char), Nat.toDigits 10 n ++ x ≠ '-' :: y := by
    intro n x y heq
    obtain ⟨c, rest, hdigits, hc⟩ := toDigits_cons n
    rw [hdigits] at heq
    cases heq
    cases hc
  intro n m x y hx hy heq
  simp only [toList_decimalText, List.append_assoc] at heq
  by_cases hn : n < 0
  · by_cases hm : m < 0
    · rw [if_pos hn, if_pos hm] at heq
      obtain ⟨hnm, hxy⟩ := unambiguous_digits _ _ x y hx hy (List.cons.inj heq).2
      exact ⟨by omega, hxy⟩
    · rw [if_pos hn, if_neg hm] at heq
      exact absurd heq.symm (hsign _ _ _)
  · by_cases hm : m < 0
    · rw [if_neg hn, if_pos hm] at heq
      exact absurd heq (hsign _ _ _)
    · rw [if_neg hn, if_neg hm] at heq
      obtain ⟨hnm, hxy⟩ := unambiguous_digits _ _ x y hx hy heq
      exact ⟨by omega, hxy⟩

/-- The text of a scalar. -/
def scalarText (v : PyVal) : List Char :=
  match jsonScalar v with
  | .ok s => s.toList
  | .error _ => []

theorem jsonScalar_ok {v : PyVal} (hv : v.IsScalar) :
    jsonScalar v = .ok (String.ofList (scalarText v)) := by
  cases v with
  | none | bool b | str s | int n => simp [jsonScalar, scalarText]
  | float x => exact hv.elim
  | object cls text => exact hv.elim

/-- The kind of value a text begins: its first character gives it away. -/
def kindOf (c : Char) : Nat :=
  if c = '"' then 0 else if c = 'n' then 1 else if c = 't' ∨ c = 'f' then 2 else 3

def PyVal.kind : PyVal → Nat
  | .str _ => 0
  | .none => 1
  | .bool _ => 2
  | _ => 3

theorem kindOf_digit {c : Char} (hc : c.isDigit = true) : kindOf c = 3 := by
  unfold kindOf
  rw [if_neg, if_neg, if_neg]
  · rintro (rfl | rfl) <;> cases hc
  · rintro rfl
    cases hc
  · rintro rfl
    cases hc

theorem scalarText_cons {v : PyVal} (hv : v.IsScalar) :
    ∃ c rest, scalarText v = c :: rest ∧ kindOf c = v.kind := by
  cases v with
  | none => exact ⟨'n', _, rfl, rfl⟩
  | str s => exact ⟨'"', _, toList_jsonString s, rfl⟩
  | bool b =>
      cases b with
      | false => exact ⟨'f', _, rfl, rfl⟩
      | true => exact ⟨'t', _, rfl, rfl⟩
  | int n =>
      obtain ⟨c, rest, hdigits, hc⟩ := toDigits_cons n.natAbs
      have htext : scalarText (.int n) = (if n < 0 then ['-'] else []) ++ c :: rest := by
        rw [← hdigits]
        exact toList_decimalText n
      by_cases hn : n < 0
      · rw [if_pos hn] at htext
        exact ⟨'-', _, htext, rfl⟩
      · rw [if_neg hn] at htext
        exact ⟨c, _, htext, kindOf_digit hc⟩
  | float x => exact hv.elim
  | object cls text => exact hv.elim

/-- **Scalars of different values, booleans and integers included, are told apart.** -/
theorem unambiguous_scalar :
    Unambiguous (fun v : {v : PyVal // v.IsScalar} => scalarText v) NoDigit := by
  rintro ⟨v, hv⟩ ⟨w, hw⟩ x y hx hy heq
  suffices h : v = w ∧ x = y from ⟨Subtype.ext h.1, h.2⟩
  have hkind : v.kind = w.kind := by
    obtain ⟨c, rest, htext, hc⟩ := scalarText_cons hv
    obtain ⟨c', rest', htext', hc'⟩ := scalarText_cons hw
    simp only [htext, htext'] at heq
    rw [← hc, ← hc', (List.cons.inj heq).1]
  cases v with
  | none =>
      cases w with
      | none => exact ⟨rfl, List.append_cancel_left heq⟩
      | _ => cases hkind
  | str s =>
      cases w with
      | str t =>
          obtain ⟨rfl, hxy⟩ := unambiguous_jsonString s t x y trivial trivial heq
          exact ⟨rfl, hxy⟩
      | _ => cases hkind
  | bool b =>
      cases w with
      | bool b' =>
          have hne : ∀ {c c' : Char} {rest rest' : List Char}, c ≠ c' →
              c :: rest ≠ c' :: rest' := fun hc h => hc (List.cons.inj h).1
          cases b <;> cases b'
          · exact ⟨rfl, List.append_cancel_left heq⟩
          · exact absurd heq (hne (by decide : 'f' ≠ 't'))
          · exact absurd heq (hne (by decide : 't' ≠ 'f'))
          · exact ⟨rfl, List.append_cancel_left heq⟩
      | _ => cases hkind
  | int n =>
      cases w with
      | int m =>
          obtain ⟨rfl, hxy⟩ := unambiguous_int n m x y hx hy heq
          exact ⟨rfl, hxy⟩
      | float x => exact hw.elim
      | object cls text => exact hw.elim
      | _ => cases hkind
  | float x => exact hv.elim
  | object cls text => exact hv.elim

/-! ## Payloads -/

/-- Every value of the payload is a scalar. -/
def ScalarValues (payload : Mapping PyVal) : Prop := ∀ e ∈ payload.entries, e.2.IsScalar

/-- An entry as it stands in an object. -/
def entryText (e : String × {v : PyVal // v.IsScalar}) : List Char :=
  (jsonString e.1).toList ++ ':' :: scalarText e.2

theorem unambiguous_entry : Unambiguous entryText NoDigit := by
  have hvalue : Unambiguous (fun v : {v : PyVal // v.IsScalar} => ':' :: scalarText v) NoDigit :=
    unambiguous_scalar.cons ':'
  have hentry := unambiguous_jsonString.append hvalue fun _ _ _ => trivial
  intro e f x y hx hy heq
  exact hentry e f x y hx hy heq

/-- An object's entries can be told apart. -/
theorem unambiguous_entries : Unambiguous (separated entryText ',' '\x7d') fun _ => True := by
  have hpunct : ∀ {c : Char} (x : List Char), c.isDigit = false → NoDigit (c :: x) := by
    intro c x hc c' hc'
    cases hc'
    exact hc
  refine unambiguous_entry.separated (fun e x y heq => ?_) (by decide)
    (fun x => hpunct x (by decide)) fun x => hpunct x (by decide)
  rw [entryText, toList_jsonString] at heq
  exact absurd (List.cons.inj heq).1 (by decide)

section Entries

variable {p q : Mapping PyVal}

/-- The value of a key, `None` where there is none. -/
theorem scalar_lookup (hp : ScalarValues p) (key : String) :
    ((p.lookup key).getD .none).IsScalar := by
  cases hkey : p.lookup key with
  | none => trivial
  | some v => exact hp _ (AList.mem_lookup_iff.1 (Option.mem_def.2 hkey))

/-- The entries in the order of their keys. -/
def sortedEntries (p : Mapping PyVal) (hp : ScalarValues p) :
    List (String × {v : PyVal // v.IsScalar}) :=
  (sortedStrings p.keys).map fun key => (key, ⟨(p.lookup key).getD .none, scalar_lookup hp key⟩)

theorem intercalate_separated (items : List (String × {v : PyVal // v.IsScalar})) :
    (",".intercalate (items.map fun e => String.ofList (entryText e))).toList ++ ['\x7d'] =
      separated entryText ',' '\x7d' items := by
  cases items with
  | nil => rfl
  | cons e items =>
      induction items generalizing e with
      | nil => simp [separated]
      | cons e' items ih =>
          have hrest := ih e'
          rw [List.map_cons] at hrest
          rw [List.map_cons, List.map_cons, String.intercalate_cons_cons, String.toList_append,
            List.append_assoc, hrest]
          simp [separated]

/-- The text of a payload of scalars. -/
theorem jsonDumps_ok (hp : ScalarValues p) : jsonDumps p =
    .ok (String.ofList ('\x7b' :: separated entryText ',' '\x7d' (sortedEntries p hp))) := by
  have hitems : ∀ keys : List String,
      (keys.mapM fun key => do
        let value ← jsonScalar ((p.lookup key).getD .none)
        pure (jsonString key ++ ":" ++ value) : Except Exc (List String)) =
      .ok ((keys.map fun key => (key, (⟨(p.lookup key).getD .none, scalar_lookup hp key⟩ :
        {v : PyVal // v.IsScalar}))).map fun e => String.ofList (entryText e)) := by
    intro keys
    induction keys with
    | nil => rfl
    | cons key keys ih =>
        rw [List.mapM_cons, ih, jsonScalar_ok (scalar_lookup hp key)]
        refine congrArg (fun text => Except.ok (text :: _)) ?_
        simp [entryText, String.ext_iff]
  unfold jsonDumps
  rw [hitems]
  refine congrArg Except.ok (String.toList_inj.1 ?_)
  rw [String.toList_ofList, ← intercalate_separated, sortedEntries]
  simp

/-- Sorting forgets the order. -/
theorem sortedStrings_eq_iff {xs ys : List String} :
    sortedStrings xs = sortedStrings ys ↔ xs.Perm ys := by
  have hxs := List.perm_insertionSort (· ≤ · : String → String → Prop) xs
  have hys := List.perm_insertionSort (· ≤ · : String → String → Prop) ys
  constructor
  · intro h
    unfold sortedStrings at h
    exact hxs.symm.trans (h ▸ hys)
  · intro h
    exact ((hxs.trans h).trans hys.symm).eq_of_pairwise' (List.pairwise_insertionSort _ _)
      (List.pairwise_insertionSort _ _)

/-- Mappings that look up alike have the same entries. -/
theorem entries_perm_iff : p.entries.Perm q.entries ↔ ∀ key, p.lookup key = q.lookup key := by
  constructor
  · exact fun h key => AList.perm_lookup h
  · intro h
    refine (List.perm_ext_iff_of_nodup p.nodupKeys.nodup q.nodupKeys.nodup).2 fun e => ?_
    rw [← Sigma.eta e, ← AList.mem_lookup_iff, ← AList.mem_lookup_iff, h]

/-- **One text, one payload**: whatever the order of the entries. -/
theorem jsonDumps_eq_iff (hp : ScalarValues p) (hq : ScalarValues q) :
    jsonDumps p = jsonDumps q ↔ p.entries.Perm q.entries := by
  constructor
  · intro h
    rw [jsonDumps_ok hp, jsonDumps_ok hq] at h
    have htext := (List.cons.inj (String.ofList_injective (Except.ok.inj h))).2
    have hsorted : sortedEntries p hp = sortedEntries q hq :=
      unambiguous_entries.injective trivial htext
    have hkeys : sortedStrings p.keys = sortedStrings q.keys := by
      have hfst := congrArg (List.map Prod.fst) hsorted
      simpa [sortedEntries, Function.comp_def] using hfst
    have hmem : ∀ key, key ∈ p.keys ↔ key ∈ q.keys :=
      fun key => (sortedStrings_eq_iff.1 hkeys).mem_iff
    unfold sortedEntries at hsorted
    rw [hkeys] at hsorted
    refine entries_perm_iff.2 fun key => ?_
    by_cases hkey : key ∈ q.keys
    · obtain ⟨v, hv⟩ := Option.isSome_iff_exists.1 (AList.lookup_isSome.2 ((hmem key).2 hkey))
      obtain ⟨w, hw⟩ := Option.isSome_iff_exists.1 (AList.lookup_isSome.2 hkey)
      have hpair := List.map_inj_left.1 hsorted key ((List.mem_insertionSort _).2 hkey)
      have hvalue : (p.lookup key).getD .none = (q.lookup key).getD .none :=
        congrArg (fun e => e.2.1) hpair
      rw [hv, hw] at hvalue ⊢
      exact congrArg some hvalue
    · rw [AList.lookup_eq_none.2 hkey, AList.lookup_eq_none.2 (mt (hmem key).1 hkey)]
  · intro hperm
    have hlookup := entries_perm_iff.1 hperm
    have hkeys : sortedStrings p.keys = sortedStrings q.keys :=
      sortedStrings_eq_iff.2 (hperm.map Sigma.fst)
    rw [jsonDumps_ok hp, jsonDumps_ok hq]
    have hsorted : sortedEntries p hp = sortedEntries q hq := by
      simp only [sortedEntries, hkeys, hlookup]
    rw [hsorted]

end Entries

end HermesRuntime
