import Mathlib.Data.List.Basic

/-!
# Machines that answer

A machine takes its inputs one after the other and answers each. Its history is what an observer
sees: the inputs with their answers.

* `history_append`, `history_cut` — histories are put together and cut like the inputs.
* `stays_or` — what holds goes on to hold, or the history shows the step that ended it.
* `Simulates.history` — a machine that simulates another one has the same histories.
* `history_filterMap` — a machine that hands some of its inputs on to another one.
-/

namespace Machines

variable {ι ο σ : Type}

section Runs

variable (step : σ → ι → ο × σ)

/-- The state after some inputs. -/
def final (is : List ι) (s : σ) : σ := is.foldl (fun s i => (step s i).2) s

/-- The inputs with their answers. -/
def history : List ι → σ → List (ι × ο)
  | [], _ => []
  | i :: is, s => (i, (step s i).1) :: history is (step s i).2

@[simp] theorem final_nil (s : σ) : final step [] s = s := rfl

@[simp] theorem final_cons (i : ι) (is : List ι) (s : σ) :
    final step (i :: is) s = final step is (step s i).2 := rfl

@[simp] theorem history_nil (s : σ) : history step [] s = [] := rfl

@[simp] theorem history_cons (i : ι) (is : List ι) (s : σ) :
    history step (i :: is) s = (i, (step s i).1) :: history step is (step s i).2 := rfl

theorem final_append (is is' : List ι) (s : σ) :
    final step (is ++ is') s = final step is' (final step is s) := by
  simp [final]

theorem history_append (is is' : List ι) (s : σ) :
    history step (is ++ is') s = history step is s ++ history step is' (final step is s) := by
  induction is generalizing s with
  | nil => simp
  | cons i is ih => simp [ih]

variable {step}

/-- Cut a history at one of its answers. -/
theorem history_cut {is : List ι} {s : σ} {pre post : List (ι × ο)} {i : ι} {o : ο}
    (h : history step is s = pre ++ (i, o) :: post) :
    ∃ is₁ is₂, is = is₁ ++ i :: is₂ ∧ history step is₁ s = pre ∧
      (step (final step is₁ s) i).1 = o ∧
      history step is₂ (step (final step is₁ s) i).2 = post := by
  induction pre generalizing is s with
  | nil =>
      cases is with
      | nil => simp at h
      | cons i' is =>
          simp only [history_cons, List.nil_append, List.cons.injEq, Prod.mk.injEq] at h
          obtain ⟨⟨rfl, ho⟩, hpost⟩ := h
          exact ⟨[], is, rfl, rfl, ho, hpost⟩
  | cons e pre ih =>
      cases is with
      | nil => simp at h
      | cons i' is =>
          simp only [history_cons, List.cons_append, List.cons.injEq] at h
          obtain ⟨he, hrest⟩ := h
          obtain ⟨is₁, is₂, rfl, hpre, ho, hpost⟩ := ih hrest
          exact ⟨i' :: is₁, is₂, rfl, by simp [hpre, he], ho, hpost⟩

/-- Every answer of a history is one the machine gives. -/
theorem answer_of_mem {is : List ι} {s : σ} {e : ι × ο} (h : e ∈ history step is s) :
    ∃ s', e.2 = (step s' e.1).1 := by
  obtain ⟨pre, post, hcut⟩ := List.append_of_mem h
  obtain ⟨is₁, is₂, -, -, ho, -⟩ := history_cut hcut
  exact ⟨_, ho.symm⟩

/-- What holds goes on to hold, or the history shows the step that ended it. -/
theorem stays_or {P : σ → Prop} {E : ι × ο → Prop}
    (hstep : ∀ s i, P s → P (step s i).2 ∨ E (i, (step s i).1)) {s : σ} (hs : P s) (is : List ι) :
    P (final step is s) ∨ ∃ e ∈ history step is s, E e := by
  induction is generalizing s with
  | nil => exact Or.inl hs
  | cons i is ih =>
      rcases hstep s i hs with hnext | hend
      · refine (ih hnext).imp id ?_
        rintro ⟨e, he, hE⟩
        exact ⟨e, List.mem_cons_of_mem _ he, hE⟩
      · exact Or.inr ⟨_, List.mem_cons_self, hend⟩

end Runs

/-! ## Simulation -/

variable {τ : Type}

/-- Each step from related states is answered alike and leads to related states. -/
def Simulates (step : σ → ι → ο × σ) (step' : τ → ι → ο × τ) (R : σ → τ → Prop) : Prop :=
  ∀ s t i, R s t → (step s i).1 = (step' t i).1 ∧ R (step s i).2 (step' t i).2

/-- **A machine that simulates another one has its histories.** -/
theorem Simulates.history {step : σ → ι → ο × σ} {step' : τ → ι → ο × τ} {R : σ → τ → Prop}
    (h : Simulates step step' R) {s : σ} {t : τ} (hst : R s t) (is : List ι) :
    history step is s = history step' is t ∧ R (final step is s) (final step' is t) := by
  induction is generalizing s t with
  | nil => exact ⟨rfl, hst⟩
  | cons i is ih =>
      obtain ⟨ho, hnext⟩ := h s t i hst
      obtain ⟨hrest, hfinal⟩ := ih hnext
      refine ⟨?_, hfinal⟩
      rw [history_cons, history_cons, ho, hrest]

/-! ## Part of the inputs -/

variable {κ ω : Type}

/-- A machine that does with some of its inputs what another machine does, and nothing with the
others, has the other machine's history where its own is read that way. -/
theorem history_filterMap {step : σ → ι → ο × σ} {step' : σ → κ → ω × σ} {f : ι → Option κ}
    {g : ι × ο → Option (κ × ω)}
    (hsome : ∀ s i k, f i = some k →
      g (i, (step s i).1) = some (k, (step' s k).1) ∧ (step s i).2 = (step' s k).2)
    (hnone : ∀ s i, f i = none → g (i, (step s i).1) = none ∧ (step s i).2 = s)
    (is : List ι) (s : σ) :
    (history step is s).filterMap g = history step' (is.filterMap f) s ∧
      final step is s = final step' (is.filterMap f) s := by
  induction is generalizing s with
  | nil => exact ⟨rfl, rfl⟩
  | cons i is ih =>
      cases hf : f i with
      | none =>
          obtain ⟨hg, hsame⟩ := hnone s i hf
          simpa [hf, hg, hsame] using ih s
      | some k =>
          obtain ⟨hg, hnext⟩ := hsome s i k hf
          simpa [hf, hg, hnext] using ih (step' s k).2

end Machines
