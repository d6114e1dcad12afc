import HermesRuntime.Lib.Positional
import HermesRuntime.RunIds
import Mathlib.Data.String.Basic

/-!
# Run ids in order

A run id writes its clock and its random bits as one number at a fixed width, over an alphabet in
the order of its characters. So both can be read back, and ids sort by their clock first.

* `base32_eq_bits` — the digits as `new_run_id` shifts and masks them out.
* `decodeRunId_newRunId` — reading an id back.
* `run_id_sortable` — ids against what they were built from.
-/

namespace HermesRuntime

open Positional

theorem base32_eq_digits (value : ℕ) : base32 value = digits 32 26 value := rfl

/-- The digits as the source takes them out of `(millis << 80) | random`. -/
theorem base32_eq_bits (millis : ℕ) (random : Fin (2 ^ 80)) :
    base32 (millis * 2 ^ 80 + random) = (List.range 26).reverse.map fun i =>
      ((millis <<< 80) ||| (random : ℕ)) >>> (5 * i) &&& 31 := by
  have hvalue : (millis <<< 80) ||| (random : ℕ) = millis * 2 ^ 80 + random := by
    rw [← Nat.shiftLeft_add_eq_or_of_lt random.isLt, Nat.shiftLeft_eq]
  have hmask : ∀ x : ℕ, x &&& 31 = x % 32 := fun x => Nat.and_two_pow_sub_one_eq_mod x 5
  have hshift : ∀ i : ℕ, 32 ^ i = 2 ^ (5 * i) := fun i => (pow_mul 2 5 i).symm
  refine List.map_congr_left fun i _ => ?_
  rw [hvalue, hmask, hshift, Nat.shiftRight_eq_div_pow]

/-- The clock and the random bits fill 128 of the 130 bits of the digits. -/
theorem value_lt_pow {millis : ℕ} (h : millis < 2 ^ 48) (random : Fin (2 ^ 80)) :
    millis * 2 ^ 80 + random < 32 ^ 26 := by
  have hrandom := random.isLt
  omega

/-! ## Reading an id -/

/-- The clock and the random bits the 26 characters after `run_` write in base 32. -/
def decodeRunId (id : String) : ℕ × ℕ :=
  let value := value 32 ((id.toList.drop 4).map alphabet.idxOf)
  (value / 2 ^ 80, value % 2 ^ 80)

theorem idxOf_getD_alphabet : ∀ digit < 32, alphabet.idxOf (alphabet.getD digit '0') = digit := by
  decide

/-- **An id is read back.** -/
theorem decodeRunId_newRunId {millis : ℕ} (h : millis < 2 ^ 48) (random : Fin (2 ^ 80)) :
    decodeRunId (newRunId millis random) = (millis, (random : ℕ)) := by
  have hdigits : ((newRunId millis random).toList.drop 4).map alphabet.idxOf =
      base32 (millis * 2 ^ 80 + random) := by
    rw [toList_newRunId]
    simp only [List.drop_succ_cons, List.drop_zero, List.map_map]
    refine (List.map_congr_left fun digit hdigit => ?_).trans (List.map_id _)
    exact idxOf_getD_alphabet digit (lt_of_mem_base32 hdigit)
  have hvalue := value_lt_pow h random
  have hrandom := random.isLt
  unfold decodeRunId
  rw [hdigits, base32_eq_digits, value_digits_of_lt hvalue]
  refine Prod.ext ?_ ?_
  · change (millis * 2 ^ 80 + random) / 2 ^ 80 = millis
    omega
  · change (millis * 2 ^ 80 + random) % 2 ^ 80 = random
    omega

/-! ## The order of ids -/

theorem alphabet_strictMono :
    ∀ d < 32, ∀ e < 32, d < e → alphabet.getD d '0' < alphabet.getD e '0' := by decide

theorem newRunId_lt_iff {millis millis' : ℕ} (h : millis < 2 ^ 48) (h' : millis' < 2 ^ 48)
    (random random' : Fin (2 ^ 80)) :
    newRunId millis random < newRunId millis' random' ↔
      millis < millis' ∨ millis = millis' ∧ random < random' := by
  rw [String.lt_iff_toList_lt, toList_newRunId, toList_newRunId]
  simp only [List.cons_lt_cons_self]
  rw [base32_eq_digits, base32_eq_digits, map_digits_lt_iff (by decide) alphabet_strictMono
    (value_lt_pow h random) (value_lt_pow h' random')]
  exact mul_add_lt_iff random.isLt random'.isLt

/-- **Run ids encode their clock and random bits, and sort by them.** What an id was built from is
read back, it has the format of a run id, different pairs get different ids, and ids compare as
strings as the pairs compare, clock first. -/
theorem run_id_sortable {millis millis' : ℕ} (h : millis < 2 ^ 48) (h' : millis' < 2 ^ 48)
    (random random' : Fin (2 ^ 80)) :
    decodeRunId (newRunId millis random) = (millis, (random : ℕ)) ∧
    isRunId (newRunId millis random) = true ∧
    ((millis, random) ≠ (millis', random') →
      newRunId millis random ≠ newRunId millis' random') ∧
    (newRunId millis random < newRunId millis' random' ↔
      millis < millis' ∨ millis = millis' ∧ random < random') ∧
    (millis < millis' → newRunId millis random < newRunId millis' random') := by
  have hlt := newRunId_lt_iff h h' random random'
  refine ⟨decodeRunId_newRunId h random, isRunId_newRunId millis random, fun hne heq => hne ?_,
    hlt, fun hlater => hlt.2 (Or.inl hlater)⟩
  have hdecode := decodeRunId_newRunId h random
  rw [heq, decodeRunId_newRunId h' random', Prod.mk.injEq] at hdecode
  exact Prod.ext hdecode.1.symm (Fin.ext hdecode.2.symm)

/-- The random bits that are all set. -/
def lastRandom : Fin (2 ^ 80) := ⟨2 ^ 80 - 1, by decide⟩

/-- The last id of one millisecond sorts before the first one of the next. -/
theorem run_id_sortable_next : newRunId 1786000000000 lastRandom < newRunId 1786000000001 0 :=
  (run_id_sortable (by decide) (by decide) lastRandom 0).2.2.2.2 (by decide)

end HermesRuntime
