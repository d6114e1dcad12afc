import HermesRuntime.Lib.Prog

/-!
# Counting calls

How many events of a kind a program can make, whatever it is answered, and what becomes of such a
bound where every event stands for events of a level below.

* `AtMost.countP_le` — a bound on the program bounds each of its traces.
* `atMost_bind`, `atMost_run_bind`, `atMost_run_tryCatch` — bounds of parts add up.
* `Expands.countP_le` — a bound on what single events expand to is one on whole traces.
-/

namespace Effects

namespace Prog

variable {ι α β ε : Type} {ρ : ι → Type}

/-- No trace of the program has more than `n` events of kind `P`. -/
def AtMost (P : Event ι ρ → Bool) : ℕ → Prog ι ρ α → Prop
  | _, .ret _ => True
  | n, .call i k => ∀ r, ∃ m, m + (P ⟨i, r⟩).toNat ≤ n ∧ AtMost P m (k r)

variable {P : Event ι ρ → Bool} {m n : ℕ}

theorem AtMost.mono {p : Prog ι ρ α} (h : AtMost P m p) (hmn : m ≤ n) : AtMost P n p := by
  cases p with
  | ret a => trivial
  | call i k =>
      intro r
      obtain ⟨m', hm', hk⟩ := h r
      exact ⟨m', Nat.le_trans hm' hmn, hk⟩

theorem atMost_of_only {p : Prog ι ρ α} (h : Only (fun e => P e = false) p) : AtMost P n p := by
  induction p with
  | ret a => trivial
  | call i k ih =>
      intro r
      refine ⟨n, ?_, ih r (h r).2⟩
      rw [(h r).1]
      exact Nat.le_refl n

/-- One event of any kind. -/
theorem atMost_call_ret (i : ι) : AtMost P 1 (.call i .ret) :=
  fun r => ⟨0, by rw [Nat.zero_add]; exact Bool.toNat_le _, trivial⟩

theorem atMost_bind {p : Prog ι ρ α} {f : α → Prog ι ρ β} (hp : AtMost P m p)
    (hf : ∀ a, AtMost P n (f a)) : AtMost P (m + n) (p >>= f) := by
  induction p generalizing m with
  | ret a => exact (hf a).mono (Nat.le_add_left n m)
  | call i k ih =>
      intro r
      obtain ⟨m', hm', hk⟩ := hp r
      exact ⟨m' + n, by omega, ih r hk⟩

/-- **Every trace keeps to the bound of its program.** -/
theorem AtMost.countP_le {p q : Prog ι ρ α} {tr : List (Event ι ρ)} (hp : AtMost P n p)
    (h : Reach p tr q) : tr.countP P ≤ n := by
  induction h generalizing n with
  | refl => exact Nat.zero_le n
  | @call i k r tr q _ ih =>
      obtain ⟨m, hm, hk⟩ := hp r
      have hrest := ih hk
      rw [List.countP_cons]
      cases hP : P ⟨i, r⟩ with
      | true =>
          rw [hP, Bool.toNat_true] at hm
          simp only [if_true]
          omega
      | false =>
          rw [hP, Bool.toNat_false] at hm
          simp only [Bool.false_eq_true, if_false]
          omega

theorem atMost_run_bind {x : ExceptT ε (Prog ι ρ) α} {f : α → ExceptT ε (Prog ι ρ) β}
    (hx : AtMost P m x.run) (hf : ∀ a, AtMost P n (f a).run) :
    AtMost P (m + n) (x >>= f).run := by
  rw [ExceptT.run_bind]
  refine atMost_bind hx fun o => ?_
  cases o with
  | ok a => exact hf a
  | error e => trivial

/-- What comes before does not count. -/
theorem atMost_run_bind_left {x : ExceptT ε (Prog ι ρ) α} {f : α → ExceptT ε (Prog ι ρ) β}
    (hx : Only (fun e => P e = false) x.run) (hf : ∀ a, AtMost P n (f a).run) :
    AtMost P n (x >>= f).run :=
  (atMost_run_bind (m := 0) (atMost_of_only hx) hf).mono (Nat.le_of_eq (Nat.zero_add n))

/-- What comes after does not count. -/
theorem atMost_run_bind_right {x : ExceptT ε (Prog ι ρ) α} {f : α → ExceptT ε (Prog ι ρ) β}
    (hx : AtMost P n x.run) (hf : ∀ a, Only (fun e => P e = false) (f a).run) :
    AtMost P n (x >>= f).run :=
  (atMost_run_bind (n := 0) hx fun a => atMost_of_only (hf a)).mono (Nat.le_of_eq (Nat.add_zero n))

theorem atMost_run_tryCatch {x : ExceptT ε (Prog ι ρ) α} {c : ε → ExceptT ε (Prog ι ρ) α}
    (hx : AtMost P m x.run) (hc : ∀ e, AtMost P n (c e).run) :
    AtMost P (m + n) (tryCatch x c).run := by
  rw [run_tryCatch]
  refine atMost_bind hx fun o => ?_
  cases o with
  | ok a => trivial
  | error e => exact hc e

/-- What the handler does does not count. -/
theorem atMost_run_tryCatch_left {x : ExceptT ε (Prog ι ρ) α}
    {c : ε → ExceptT ε (Prog ι ρ) α} (hx : AtMost P n x.run)
    (hc : ∀ e, Only (fun e => P e = false) (c e).run) : AtMost P n (tryCatch x c).run :=
  (atMost_run_tryCatch (n := 0) hx fun e => atMost_of_only (hc e)).mono
    (Nat.le_of_eq (Nat.add_zero n))

end Prog

/-! ## A level below -/

variable {ι ω : Type} {ρ : ι → Type}

/-- The events `below` are what the events `tr` are made of, one after the other. -/
def Expands (made : Event ι ρ → List ω → Prop) (tr : List (Event ι ρ)) (below : List ω) : Prop :=
  ∃ parts, List.Forall₂ made tr parts ∧ below = parts.flatten

/-- **Bounds carry over to the level below.** -/
theorem Expands.countP_le {made : Event ι ρ → List ω → Prop} {P : Event ι ρ → Bool}
    {Q : ω → Bool} (hmade : ∀ e part, made e part → part.countP Q ≤ (P e).toNat)
    {tr : List (Event ι ρ)} {below : List ω} (h : Expands made tr below) :
    below.countP Q ≤ tr.countP P := by
  obtain ⟨parts, hparts, rfl⟩ := h
  induction hparts with
  | nil => exact Nat.le_refl 0
  | @cons e part tr parts hpart _ ih =>
      have hfirst := hmade e part hpart
      rw [List.flatten_cons, List.countP_append, List.countP_cons]
      cases hP : P e with
      | true =>
          rw [hP, Bool.toNat_true] at hfirst
          simp only [if_true]
          omega
      | false =>
          rw [hP, Bool.toNat_false] at hfirst
          simp only [Bool.false_eq_true, if_false]
          omega

end Effects
