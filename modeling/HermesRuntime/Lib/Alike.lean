import HermesRuntime.Lib.Handler
import Mathlib.Data.List.Basic

/-!
# Programs that go on alike

Two programs are alike when they make the same calls for as long as these are answered alike, and
return what is related. What "alike" means for answers and results is left open, so the same rules
serve for showing that a program does not depend on some part of what it is told.

* `Prog.Alike A R p p'` — `p` and `p'` are alike, for answers related by `A` and results by `R`.
* `Alike.calls_eq`, `Alike.calls_prefix` — alike programs make the same calls.
* `Alike.handle` — they are alike where their calls are carried out alike.
* `SameOutcome E R` — the results of programs that may raise; the last section has the rules for
  their sequencing and for `try`/`catch`.
-/

namespace Effects

variable {ι : Type} {ρ : ι → Type} {α β γ δ ε : Type}

/-- Wherever two traces have come to the same call by the same calls, it is answered alike. -/
def AnsweredAlike (A : (i : ι) → ρ i → ρ i → Prop) (tr tr' : List (Event ι ρ)) : Prop :=
  ∀ pre pre' i r r' post post', tr = pre ++ ⟨i, r⟩ :: post → tr' = pre' ++ ⟨i, r'⟩ :: post' →
    pre.map (·.1) = pre'.map (·.1) → A i r r'

theorem AnsweredAlike.head {A : (i : ι) → ρ i → ρ i → Prop} {i : ι} {r r' : ρ i}
    {tr tr' : List (Event ι ρ)} (h : AnsweredAlike A (⟨i, r⟩ :: tr) (⟨i, r'⟩ :: tr')) :
    A i r r' :=
  h [] [] i r r' tr tr' rfl rfl rfl

theorem AnsweredAlike.tail {A : (i : ι) → ρ i → ρ i → Prop} {i : ι} {r r' : ρ i}
    {tr tr' : List (Event ι ρ)} (h : AnsweredAlike A (⟨i, r⟩ :: tr) (⟨i, r'⟩ :: tr')) :
    AnsweredAlike A tr tr' := by
  rintro pre pre' j s s' post post' rfl rfl heq
  exact h (⟨i, r⟩ :: pre) (⟨i, r'⟩ :: pre') j s s' post post' rfl rfl (congrArg (i :: ·) heq)

namespace Prog

/-- The programs make the same calls as long as these are answered alike, and their results are
related. -/
inductive Alike (A : (i : ι) → ρ i → ρ i → Prop) (R : α → β → Prop) :
    Prog ι ρ α → Prog ι ρ β → Prop
  | ret {a : α} {b : β} (h : R a b) : Alike A R (.ret a) (.ret b)
  | call {i : ι} {k : ρ i → Prog ι ρ α} {k' : ρ i → Prog ι ρ β}
      (h : ∀ r r', A i r r' → Alike A R (k r) (k' r')) : Alike A R (.call i k) (.call i k')

section Alike

variable {A : (i : ι) → ρ i → ρ i → Prop} {R : α → β → Prop} {S : γ → δ → Prop}
  {p : Prog ι ρ α} {p' : Prog ι ρ β}

theorem Alike.bind (h : Alike A R p p') {f : α → Prog ι ρ γ} {f' : β → Prog ι ρ δ}
    (hf : ∀ a b, R a b → Alike A S (f a) (f' b)) : Alike A S (p >>= f) (p' >>= f') := by
  induction h with
  | ret h => exact hf _ _ h
  | call _ ih => exact .call fun r r' hr => ih r r' hr

/-- **Alike programs that are answered alike make the same calls**, to the end. -/
theorem Alike.calls_eq (h : Alike A R p p') {tr tr' : List (Event ι ρ)} {a : α} {b : β}
    (hp : Returns p tr a) (hp' : Returns p' tr' b) (halike : AnsweredAlike A tr tr') :
    tr.map (·.1) = tr'.map (·.1) ∧ R a b := by
  induction h generalizing tr tr' with
  | ret h =>
      obtain ⟨rfl, rfl⟩ := returns_ret.1 hp
      obtain ⟨rfl, rfl⟩ := returns_ret.1 hp'
      exact ⟨rfl, h⟩
  | @call i k k' _ ih =>
      obtain ⟨r, rest, rfl, hrest⟩ := returns_call.1 hp
      obtain ⟨r', rest', rfl, hrest'⟩ := returns_call.1 hp'
      obtain ⟨hcalls, hresult⟩ := ih r r' halike.head hrest hrest' halike.tail
      exact ⟨congrArg (i :: ·) hcalls, hresult⟩

/-- Where they are stopped in the middle, one has made the first calls of the other. -/
theorem Alike.calls_prefix (h : Alike A R p p') {tr tr' : List (Event ι ρ)} {q : Prog ι ρ α}
    {q' : Prog ι ρ β} (hp : Reach p tr q) (hp' : Reach p' tr' q')
    (halike : AnsweredAlike A tr tr') :
    tr.map (·.1) <+: tr'.map (·.1) ∨ tr'.map (·.1) <+: tr.map (·.1) := by
  induction h generalizing tr tr' with
  | ret h =>
      cases hp
      exact Or.inl List.nil_prefix
  | @call i k k' _ ih =>
      cases hp with
      | refl => exact Or.inl List.nil_prefix
      | @call _ _ r _ _ hrest =>
          cases hp' with
          | refl => exact Or.inr List.nil_prefix
          | @call _ _ r' _ _ hrest' =>
              refine (ih r r' halike.head hrest hrest' halike.tail).imp ?_ ?_
              · exact fun hpre => List.prefix_cons_inj i |>.2 hpre
              · exact fun hpre => List.prefix_cons_inj i |>.2 hpre

/-- Fixed answers that are alike answer a program alike. -/
theorem answeredAlike_answerWith {f f' : (i : ι) → ρ i} (hf : ∀ i, A i (f i) (f' i))
    (p : Prog ι ρ α) (p' : Prog ι ρ β) :
    AnsweredAlike A (answerWith f p).1 (answerWith f' p').1 := by
  have hfixed : ∀ {γ : Type} (g : (i : ι) → ρ i) (q : Prog ι ρ γ),
      ∀ e ∈ (answerWith g q).1, e.2 = g e.1 := by
    intro γ g q
    induction q with
    | ret c => exact List.forall_mem_nil _
    | call i k ih => exact List.forall_mem_cons.2 ⟨rfl, ih (g i)⟩
  intro pre pre' i r r' post post' htr htr' _
  have hr : r = f i := hfixed f p ⟨i, r⟩ (by rw [htr]; simp)
  have hr' : r' = f' i := hfixed f' p' ⟨i, r'⟩ (by rw [htr']; simp)
  rw [hr, hr']
  exact hf i

/-- So do answers that are alike as far as there are any. -/
theorem answeredAlike_advance {f f' : (i : ι) → Option (ρ i)}
    (hf : ∀ i r r', f i = some r → f' i = some r' → A i r r') (p : Prog ι ρ α)
    (p' : Prog ι ρ β) : AnsweredAlike A (advance f p).1 (advance f' p').1 := by
  intro pre pre' i r r' post post' htr htr' _
  have hr : f i = some r := answers_advance f p ⟨i, r⟩ (by rw [htr]; simp)
  have hr' : f' i = some r' := answers_advance f' p' ⟨i, r'⟩ (by rw [htr']; simp)
  exact hf i r r' hr hr'

end Alike

/-! ## Handled programs -/

section Handled

variable {κ : Type} {θ : κ → Type} {h : (i : ι) → Prog κ θ (ρ i)}
  {A : (i : ι) → ρ i → ρ i → Prop} {B : (j : κ) → θ j → θ j → Prop}

/-- **Where calls are carried out alike**, alike programs are. -/
theorem Alike.handle {R : α → β → Prop} {p : Prog ι ρ α} {p' : Prog ι ρ β}
    (hp : Alike A R p p') (hh : ∀ i, Alike B (A i) (h i) (h i)) :
    Alike B R (Prog.handle h p) (Prog.handle h p') := by
  induction hp with
  | ret hr => exact .ret hr
  | @call i _ _ _ ih => exact (hh i).bind fun r r' hr => ih r r' hr

end Handled

/-! ## Programs that may raise -/

/-- Both returned what `R` relates, or both raised what `E` relates. -/
inductive SameOutcome (E : ε → ε → Prop) (R : α → β → Prop) : Except ε α → Except ε β → Prop
  | ok {a : α} {b : β} (h : R a b) : SameOutcome E R (.ok a) (.ok b)
  | error {e e' : ε} (h : E e e') : SameOutcome E R (.error e) (.error e')

section Raising

variable {A : (i : ι) → ρ i → ρ i → Prop} {E : ε → ε → Prop} {R : α → β → Prop} {S : γ → δ → Prop}

theorem alike_pure {a : α} {b : β} (h : R a b) : Alike A (SameOutcome E R)
    (pure a : ExceptT ε (Prog ι ρ) α).run (pure b : ExceptT ε (Prog ι ρ) β).run := .ret (.ok h)

theorem alike_throw {e e' : ε} (h : E e e') : Alike A (SameOutcome E R)
    (throw e : ExceptT ε (Prog ι ρ) α).run (throw e' : ExceptT ε (Prog ι ρ) β).run :=
  .ret (.error h)

theorem alike_run_bind {x : ExceptT ε (Prog ι ρ) α} {x' : ExceptT ε (Prog ι ρ) β}
    {f : α → ExceptT ε (Prog ι ρ) γ} {f' : β → ExceptT ε (Prog ι ρ) δ}
    (hx : Alike A (SameOutcome E R) x.run x'.run)
    (hf : ∀ a b, R a b → Alike A (SameOutcome E S) (f a).run (f' b).run) :
    Alike A (SameOutcome E S) (x >>= f).run (x' >>= f').run := by
  rw [ExceptT.run_bind, ExceptT.run_bind]
  refine hx.bind fun o o' ho => ?_
  cases ho with
  | ok h => exact hf _ _ h
  | error h => exact .ret (.error h)

theorem alike_run_tryCatch {x : ExceptT ε (Prog ι ρ) α} {x' : ExceptT ε (Prog ι ρ) β}
    {c : ε → ExceptT ε (Prog ι ρ) α} {c' : ε → ExceptT ε (Prog ι ρ) β}
    (hx : Alike A (SameOutcome E R) x.run x'.run)
    (hc : ∀ e e', E e e' → Alike A (SameOutcome E R) (c e).run (c' e').run) :
    Alike A (SameOutcome E R) (tryCatch x c).run (tryCatch x' c').run := by
  rw [run_tryCatch, run_tryCatch]
  refine hx.bind fun o o' ho => ?_
  cases ho with
  | ok h => exact .ret (.ok h)
  | error h => exact hc _ _ h

section Handled

variable {κ : Type} {θ : κ → Type} {h : (i : ι) → Prog κ θ (ρ i)}
  {B : (j : κ) → θ j → θ j → Prop}

theorem alike_handle_bind {x : ExceptT ε (Prog ι ρ) α} {x' : ExceptT ε (Prog ι ρ) β}
    {f : α → ExceptT ε (Prog ι ρ) γ} {f' : β → ExceptT ε (Prog ι ρ) δ}
    (hx : Alike B (SameOutcome E R) (handle h x.run) (handle h x'.run))
    (hf : ∀ a b, R a b → Alike B (SameOutcome E S) (handle h (f a).run) (handle h (f' b).run)) :
    Alike B (SameOutcome E S) (handle h (x >>= f).run) (handle h (x' >>= f').run) := by
  rw [ExceptT.run_bind, ExceptT.run_bind, handle_bind, handle_bind]
  refine hx.bind fun o o' ho => ?_
  cases ho with
  | ok hr => exact hf _ _ hr
  | error he => exact .ret (.error he)

theorem alike_handle_tryCatch {x : ExceptT ε (Prog ι ρ) α} {x' : ExceptT ε (Prog ι ρ) β}
    {c : ε → ExceptT ε (Prog ι ρ) α} {c' : ε → ExceptT ε (Prog ι ρ) β}
    (hx : Alike B (SameOutcome E R) (handle h x.run) (handle h x'.run))
    (hc : ∀ e e', E e e' →
      Alike B (SameOutcome E R) (handle h (c e).run) (handle h (c' e').run)) :
    Alike B (SameOutcome E R) (handle h (tryCatch x c).run) (handle h (tryCatch x' c').run) := by
  rw [run_tryCatch, run_tryCatch, handle_bind, handle_bind]
  refine hx.bind fun o o' ho => ?_
  cases ho with
  | ok hr => exact .ret (.ok hr)
  | error he => exact hc _ _ he

end Handled

end Raising

end Prog

end Effects
