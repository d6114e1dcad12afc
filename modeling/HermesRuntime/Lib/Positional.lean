import Mathlib.Data.Nat.Digits.Defs

/-!
# Numbers written at a fixed width

A number below `b ^ width` is written with `width` digits in base `b`, the most significant one
first. At one width the order of the texts is the order of the numbers, whatever symbols stand for
the digits, as long as these are in order themselves.

* `value_digits` — reading back what is written.
* `map_lt_map_iff` — the order of two texts is that of their values.
* `map_digits_lt_iff` — so it is that of the numbers written.
-/

namespace Positional

/-- The `width` last digits of `n` in base `b`, the most significant one first. -/
def digits (b width n : ℕ) : List ℕ := (List.range width).reverse.map fun i => n / b ^ i % b

/-- The number a list of digits writes. -/
def value (b : ℕ) (ds : List ℕ) : ℕ := Nat.ofDigits b ds.reverse

variable {b width n : ℕ}

@[simp] theorem digits_zero : digits b 0 n = [] := rfl

theorem digits_succ : digits b (width + 1) n = n / b ^ width % b :: digits b width n := by
  simp [digits, List.range_succ]

@[simp] theorem length_digits : (digits b width n).length = width := by simp [digits]

theorem lt_of_mem_digits (hb : 0 < b) {d : ℕ} (h : d ∈ digits b width n) : d < b := by
  obtain ⟨i, -, rfl⟩ := List.mem_map.1 h
  exact Nat.mod_lt _ hb

@[simp] theorem value_nil : value b [] = 0 := rfl

theorem value_cons (d : ℕ) (ds : List ℕ) :
    value b (d :: ds) = d * b ^ ds.length + value b ds := by
  rw [value, Nat.ofDigits_reverse_cons, Nat.mul_comm, Nat.add_comm]
  rfl

/-- **What is written is read back**, up to the width. -/
theorem value_digits : value b (digits b width n) = n % b ^ width := by
  induction width with
  | zero => simp [Nat.mod_one]
  | succ width ih =>
      rw [digits_succ, value_cons, length_digits, ih, Nat.mod_pow_succ, Nat.mul_comm, Nat.add_comm]

theorem value_digits_of_lt (h : n < b ^ width) : value b (digits b width n) = n := by
  rw [value_digits, Nat.mod_eq_of_lt h]

theorem value_lt (hb : 1 < b) {ds : List ℕ} (h : ∀ d ∈ ds, d < b) :
    value b ds < b ^ ds.length := by
  rw [← List.length_reverse]
  exact Nat.ofDigits_lt_base_pow_length hb fun d hd => h d (List.mem_reverse.1 hd)

/-- The leading parts decide, and where they agree the rest does. -/
theorem mul_add_lt_iff {w d e x y : ℕ} (hx : x < w) (hy : y < w) :
    d * w + x < e * w + y ↔ d < e ∨ d = e ∧ x < y := by
  have hstep : ∀ {i j u v : ℕ}, i < j → u < w → i * w + u < j * w + v := by
    intro i j u v hij hu
    calc i * w + u < (i + 1) * w := by rw [Nat.succ_mul]; exact Nat.add_lt_add_left hu _
      _ ≤ j * w := Nat.mul_le_mul_right w hij
      _ ≤ j * w + v := Nat.le_add_right _ _
  rcases Nat.lt_trichotomy d e with hlt | rfl | hgt
  · exact iff_of_true (hstep hlt hx) (Or.inl hlt)
  · simp
  · have hno : ¬ (d < e ∨ d = e ∧ x < y) := by omega
    exact iff_of_false (Nat.not_lt.2 (hstep hgt hy).le) hno

section Order

variable {α : Type} [LinearOrder α] {symbol : ℕ → α}

/-- **Texts of one length are ordered as their values are.** -/
theorem map_lt_map_iff (hb : 1 < b)
    (hsymbol : ∀ d < b, ∀ e < b, d < e → symbol d < symbol e) {ds es : List ℕ}
    (hlen : ds.length = es.length) (hds : ∀ d ∈ ds, d < b) (hes : ∀ e ∈ es, e < b) :
    ds.map symbol < es.map symbol ↔ value b ds < value b es := by
  induction ds generalizing es with
  | nil =>
      obtain rfl := List.length_eq_zero_iff.1 hlen.symm
      simp
  | cons d ds ih =>
      cases es with
      | nil => cases hlen
      | cons e es =>
          have hlen' : ds.length = es.length := Nat.succ.inj hlen
          rw [List.forall_mem_cons] at hds hes
          have hlt : symbol d < symbol e ↔ d < e := by
            refine ⟨fun h => ?_, hsymbol d hds.1 e hes.1⟩
            by_contra hno
            rcases Nat.lt_or_eq_of_le (Nat.not_lt.1 hno) with hgt | rfl
            · exact lt_asymm h (hsymbol e hes.1 d hds.1 hgt)
            · exact lt_irrefl _ h
          have heq : symbol d = symbol e ↔ d = e := by
            refine ⟨fun h => ?_, congrArg symbol⟩
            rcases Nat.lt_trichotomy d e with hlt' | rfl | hgt
            · exact absurd h (hlt.2 hlt').ne
            · rfl
            · exact absurd h (hsymbol e hes.1 d hds.1 hgt).ne'
          rw [List.map_cons, List.map_cons, List.cons_lt_cons_iff, hlt, heq,
            ih hlen' hds.2 hes.2, value_cons, value_cons, hlen',
            mul_add_lt_iff (hlen' ▸ value_lt hb hds.2) (value_lt hb hes.2)]

/-- **Numbers below `b ^ width` are ordered as the texts written for them.** -/
theorem map_digits_lt_iff (hb : 1 < b)
    (hsymbol : ∀ d < b, ∀ e < b, d < e → symbol d < symbol e) {n' : ℕ} (h : n < b ^ width)
    (h' : n' < b ^ width) :
    (digits b width n).map symbol < (digits b width n').map symbol ↔ n < n' := by
  have hpos : 0 < b := Nat.zero_lt_of_lt hb
  rw [map_lt_map_iff hb hsymbol (by simp) (fun d => lt_of_mem_digits hpos)
    (fun d => lt_of_mem_digits hpos), value_digits_of_lt h, value_digits_of_lt h']

end Order

end Positional
