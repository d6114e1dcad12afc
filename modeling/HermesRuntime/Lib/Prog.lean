import Mathlib.Data.List.Basic
import Mathlib.Logic.Function.Basic

/-!
# Effectful programs as trees

A program that calls into its surroundings is a tree: it has either returned, or it waits at a
call and continues with whatever answer comes back. Nothing is said here about what the calls
do, so a statement about every trace of a program is a statement about every behaviour of
everything it calls.

* `Prog.Reach p tr q` — after the calls and answers of `tr`, the program `p` has become `q`.
  This covers stops in the middle: a crash is a `q` that is never resumed.
* `Prog.Returns p tr a` — `p` ends with `a` after `tr`.
* `Prog.Only P p` — every event of `p`, however its calls are answered, satisfies `P`.

Programs that may raise are `ExceptT ε (Prog ι ρ) α`; the last section gives the same rules for
their sequencing and for `try`/`catch`.
-/

namespace Effects

/-- A program that makes calls `i : ι`, each answered in `ρ i`, and returns an `α`. -/
inductive Prog (ι : Type) (ρ : ι → Type) (α : Type) : Type where
  | ret (a : α) : Prog ι ρ α
  | call (i : ι) (k : ρ i → Prog ι ρ α) : Prog ι ρ α

/-- A call together with its answer. -/
abbrev Event (ι : Type) (ρ : ι → Type) : Type := (i : ι) × ρ i

namespace Prog

variable {ι : Type} {ρ : ι → Type} {α β : Type}

/-- Sequencing: continue with `f` where `p` returns. -/
protected def bind : Prog ι ρ α → (α → Prog ι ρ β) → Prog ι ρ β
  | .ret a, f => f a
  | .call i k, f => .call i fun r => (k r).bind f

instance : Monad (Prog ι ρ) where
  pure := .ret
  bind := Prog.bind

@[simp] theorem pure_eq (a : α) : (pure a : Prog ι ρ α) = .ret a := rfl
@[simp] theorem ret_bind (a : α) (f : α → Prog ι ρ β) : (Prog.ret a >>= f) = f a := rfl
@[simp] theorem call_bind (i : ι) (k : ρ i → Prog ι ρ α) (f : α → Prog ι ρ β) :
    (Prog.call i k >>= f) = .call i fun r => k r >>= f := rfl

theorem bind_ret (p : Prog ι ρ α) : (p >>= Prog.ret) = p := by
  induction p with
  | ret a => rfl
  | call i k ih => simp only [call_bind, ih]

theorem bind_assoc' {γ : Type} (p : Prog ι ρ α) (f : α → Prog ι ρ β) (g : β → Prog ι ρ γ) :
    ((p >>= f) >>= g) = p >>= fun a => f a >>= g := by
  induction p with
  | ret a => rfl
  | call i k ih => simp only [call_bind, ih]

instance : LawfulMonad (Prog ι ρ) :=
  LawfulMonad.mk' _ (fun p => bind_ret p) (fun _ _ => rfl) bind_assoc'

/-! ## Traces -/

/-- After the events `tr`, the program `p` has become `q`. -/
inductive Reach : Prog ι ρ α → List (Event ι ρ) → Prog ι ρ α → Prop
  | refl (p : Prog ι ρ α) : Reach p [] p
  | call {i : ι} {k : ρ i → Prog ι ρ α} {r : ρ i} {tr : List (Event ι ρ)} {q : Prog ι ρ α} :
      Reach (k r) tr q → Reach (.call i k) (⟨i, r⟩ :: tr) q

/-- `p` ends with `a` after the events `tr`. -/
def Returns (p : Prog ι ρ α) (tr : List (Event ι ρ)) (a : α) : Prop := Reach p tr (.ret a)

theorem Reach.trans {p q s : Prog ι ρ α} {tr tr' : List (Event ι ρ)} (h : Reach p tr q)
    (h' : Reach q tr' s) : Reach p (tr ++ tr') s := by
  induction h with
  | refl => exact h'
  | call _ ih => exact .call (ih h')

/-- One more answer. -/
theorem Reach.snoc {p : Prog ι ρ α} {tr : List (Event ι ρ)} {i : ι} {k : ρ i → Prog ι ρ α}
    (h : Reach p tr (.call i k)) (r : ρ i) : Reach p (tr ++ [⟨i, r⟩]) (k r) :=
  h.trans (.call (.refl _))

theorem reach_nil {p q : Prog ι ρ α} (h : Reach p [] q) : q = p := by
  cases h
  rfl

/-- Every stop in the middle can still be run to an end. -/
theorem Reach.extend [∀ i, Nonempty (ρ i)] {p q : Prog ι ρ α} {tr : List (Event ι ρ)}
    (h : Reach p tr q) : ∃ tr' a, Returns p (tr ++ tr') a := by
  suffices hq : ∃ tr' a, Returns q tr' a by
    obtain ⟨tr', a, ha⟩ := hq
    exact ⟨tr', a, h.trans ha⟩
  clear h
  induction q with
  | ret a => exact ⟨[], a, .refl _⟩
  | call i k ih =>
      obtain ⟨r⟩ := ‹∀ i, Nonempty (ρ i)› i
      obtain ⟨tr', a, ha⟩ := ih r
      exact ⟨⟨i, r⟩ :: tr', a, .call ha⟩

/-- What is left of a program after the first part of a trace has the rest of the trace. -/
theorem Reach.residue {p q s : Prog ι ρ α} {tr tr' : List (Event ι ρ)} (h : Reach p tr s)
    (h' : Reach p (tr ++ tr') q) : Reach s tr' q := by
  induction h with
  | refl => exact h'
  | call _ ih =>
      cases h' with
      | call h' => exact ih h'

@[simp] theorem returns_ret {a b : α} {tr : List (Event ι ρ)} :
    Returns (.ret a : Prog ι ρ α) tr b ↔ tr = [] ∧ b = a := by
  constructor
  · intro h
    cases h
    exact ⟨rfl, rfl⟩
  · rintro ⟨rfl, rfl⟩
    exact .refl _

/-- What a program has returned. -/
def result : Prog ι ρ α → Option α
  | .ret a => some a
  | .call _ _ => none

theorem ret_of_result {p : Prog ι ρ α} {a : α} (h : p.result = some a) : p = .ret a := by
  cases p with
  | ret b => exact congrArg _ (Option.some.inj h)
  | call => cases h

/-- A call whose answer is the result. -/
theorem returns_call_ret {i : ι} {tr : List (Event ι ρ)} {r : ρ i} :
    Returns (.call i .ret) tr r ↔ tr = [⟨i, r⟩] := by
  constructor
  · intro h
    cases h with
    | call h =>
        cases h
        rfl
  · rintro rfl
    exact .call (.refl _)

@[simp] theorem returns_call {i : ι} {k : ρ i → Prog ι ρ α} {tr : List (Event ι ρ)} {a : α} :
    Returns (.call i k) tr a ↔ ∃ r tr', tr = ⟨i, r⟩ :: tr' ∧ Returns (k r) tr' a := by
  constructor
  · intro h
    cases h with
    | call h => exact ⟨_, _, rfl, h⟩
  · rintro ⟨r, tr', rfl, h⟩
    exact .call h

theorem returns_bind {p : Prog ι ρ α} {f : α → Prog ι ρ β} {tr : List (Event ι ρ)} {b : β} :
    Returns (p >>= f) tr b ↔
      ∃ tr₁ tr₂ a, tr = tr₁ ++ tr₂ ∧ Returns p tr₁ a ∧ Returns (f a) tr₂ b := by
  induction p generalizing tr with
  | ret a => simp
  | call i k ih =>
      simp only [call_bind, returns_call, ih]
      constructor
      · rintro ⟨r, tr', rfl, tr₁, tr₂, a, rfl, h₁, h₂⟩
        exact ⟨⟨i, r⟩ :: tr₁, tr₂, a, rfl, ⟨r, tr₁, rfl, h₁⟩, h₂⟩
      · rintro ⟨_, tr₂, a, rfl, ⟨r, tr₁, rfl, h₁⟩, h₂⟩
        exact ⟨r, tr₁ ++ tr₂, rfl, tr₁, tr₂, a, rfl, h₁, h₂⟩

/-- Where `p` returns, `p >>= f` goes on as `f`. -/
theorem Reach.bind {p q : Prog ι ρ α} {tr : List (Event ι ρ)} (h : Reach p tr q)
    (f : α → Prog ι ρ β) : Reach (p >>= f) tr (q >>= f) := by
  induction h with
  | refl => exact .refl _
  | call _ ih => exact .call ih

/-! ## Programs that make certain calls only -/

/-- Every event of `p` satisfies `P`. -/
def Only (P : Event ι ρ → Prop) : Prog ι ρ α → Prop
  | .ret _ => True
  | .call i k => ∀ r, P ⟨i, r⟩ ∧ Only P (k r)

section Only

variable {P : Event ι ρ → Prop}

theorem only_bind {p : Prog ι ρ α} {f : α → Prog ι ρ β} (hp : Only P p)
    (hf : ∀ a, Only P (f a)) : Only P (p >>= f) := by
  induction p with
  | ret a => exact hf a
  | call i k ih => exact fun r => ⟨(hp r).1, ih r (hp r).2⟩

theorem Only.mono {P' : Event ι ρ → Prop} {p : Prog ι ρ α} (hp : Only P p)
    (h : ∀ e, P e → P' e) : Only P' p := by
  induction p with
  | ret a => trivial
  | call i k ih => exact fun r => ⟨h _ (hp r).1, ih r (hp r).2⟩

theorem Only.mem {p q : Prog ι ρ α} (hp : Only P p) {tr : List (Event ι ρ)}
    (hr : Reach p tr q) : ∀ e ∈ tr, P e := by
  induction hr with
  | refl => simp
  | @call i k r tr q _ ih =>
      intro e he
      rcases List.mem_cons.1 he with rfl | he
      · exact (hp r).1
      · exact ih (hp r).2 e he

end Only

/-! ## Running against fixed answers -/

/-- Run `p` where every call `i` is answered with `f i`. -/
def answerWith (f : (i : ι) → ρ i) : Prog ι ρ α → List (Event ι ρ) × α
  | .ret a => ([], a)
  | .call i k => (⟨i, f i⟩ :: (answerWith f (k (f i))).1, (answerWith f (k (f i))).2)

theorem returns_answerWith (f : (i : ι) → ρ i) (p : Prog ι ρ α) :
    Returns p (answerWith f p).1 (answerWith f p).2 := by
  induction p with
  | ret a => exact .refl _
  | call i k ih => exact .call (ih (f i))

/-- Run `p` against answers that depend on a state of their own: the events, the result and the
state they leave. -/
def serve {σ : Type} (answer : σ → (i : ι) → ρ i × σ) :
    σ → Prog ι ρ α → List (Event ι ρ) × α × σ
  | s, .ret a => ([], a, s)
  | s, .call i k =>
      let (tr, a, s') := serve answer (answer s i).2 (k (answer s i).1)
      (⟨i, (answer s i).1⟩ :: tr, a, s')

section Serve

variable {σ : Type} (answer : σ → (i : ι) → ρ i × σ)

theorem returns_serve (s : σ) (p : Prog ι ρ α) :
    Returns p (serve answer s p).1 (serve answer s p).2.1 := by
  induction p generalizing s with
  | ret a => exact .refl _
  | call i k ih => exact .call (ih (answer s i).1 (answer s i).2)

theorem serve_bind (s : σ) (p : Prog ι ρ α) (f : α → Prog ι ρ β) :
    serve answer s (p >>= f) =
      ((serve answer s p).1 ++
        (serve answer (serve answer s p).2.2 (f (serve answer s p).2.1)).1,
        (serve answer (serve answer s p).2.2 (f (serve answer s p).2.1)).2) := by
  induction p generalizing s with
  | ret a => rfl
  | call i k ih => simp only [call_bind, serve, ih, List.cons_append]

end Serve

/-! ## Programs that may raise -/

section Raising

variable {ε : Type}

@[simp] theorem returns_pure {a : α} {tr : List (Event ι ρ)} {o : Except ε α} :
    Returns (pure a : ExceptT ε (Prog ι ρ) α).run tr o ↔ tr = [] ∧ o = .ok a := returns_ret

@[simp] theorem returns_throw {e : ε} {tr : List (Event ι ρ)} {o : Except ε α} :
    Returns (throw e : ExceptT ε (Prog ι ρ) α).run tr o ↔ tr = [] ∧ o = .error e := returns_ret

theorem returns_run_bind {x : ExceptT ε (Prog ι ρ) α} {f : α → ExceptT ε (Prog ι ρ) β}
    {tr : List (Event ι ρ)} {o : Except ε β} :
    Returns (x >>= f).run tr o ↔
      (∃ tr₁ tr₂ a, tr = tr₁ ++ tr₂ ∧ Returns x.run tr₁ (.ok a) ∧ Returns (f a).run tr₂ o) ∨
      ∃ e, Returns x.run tr (.error e) ∧ o = .error e := by
  rw [ExceptT.run_bind, returns_bind]
  constructor
  · rintro ⟨tr₁, tr₂, a | a, rfl, h₁, h₂⟩
    · obtain ⟨rfl, rfl⟩ := returns_ret.1 h₂
      exact Or.inr ⟨a, by simpa using h₁, rfl⟩
    · exact Or.inl ⟨tr₁, tr₂, a, rfl, h₁, h₂⟩
  · rintro (⟨tr₁, tr₂, a, rfl, h₁, h₂⟩ | ⟨e, h, rfl⟩)
    · exact ⟨tr₁, tr₂, .ok a, rfl, h₁, h₂⟩
    · exact ⟨tr, [], .error e, by simp, h, returns_ret.2 ⟨rfl, rfl⟩⟩

theorem returns_run_bind_ok {x : ExceptT ε (Prog ι ρ) α} {f : α → ExceptT ε (Prog ι ρ) β}
    {tr : List (Event ι ρ)} {b : β} :
    Returns (x >>= f).run tr (.ok b) ↔
      ∃ tr₁ tr₂ a, tr = tr₁ ++ tr₂ ∧ Returns x.run tr₁ (.ok a) ∧
        Returns (f a).run tr₂ (.ok b) := by
  rw [returns_run_bind]
  exact ⟨fun h => h.resolve_right fun ⟨_, _, he⟩ => (nomatch he), Or.inl⟩

theorem reach_run_bind {x : ExceptT ε (Prog ι ρ) α} {a : α} {tr : List (Event ι ρ)}
    (h : Returns x.run tr (.ok a)) (f : α → ExceptT ε (Prog ι ρ) β) :
    Reach (x >>= f).run tr (f a).run := by
  rw [ExceptT.run_bind]
  exact Reach.bind h _

theorem run_tryCatch (x : ExceptT ε (Prog ι ρ) α) (c : ε → ExceptT ε (Prog ι ρ) α) :
    (tryCatch x c).run = x.run >>= fun o => match o with
      | .ok a => .ret (.ok a)
      | .error e => (c e).run := by
  show (x.run >>= fun o => _) = _
  congr 1
  funext o
  cases o <;> rfl

theorem returns_run_tryCatch {x : ExceptT ε (Prog ι ρ) α} {c : ε → ExceptT ε (Prog ι ρ) α}
    {tr : List (Event ι ρ)} {o : Except ε α} :
    Returns (tryCatch x c).run tr o ↔
      (∃ a, Returns x.run tr (.ok a) ∧ o = .ok a) ∨
      ∃ tr₁ tr₂ e, tr = tr₁ ++ tr₂ ∧ Returns x.run tr₁ (.error e) ∧ Returns (c e).run tr₂ o := by
  rw [run_tryCatch, returns_bind]
  constructor
  · rintro ⟨tr₁, tr₂, a | a, rfl, h₁, h₂⟩
    · exact Or.inr ⟨tr₁, tr₂, a, rfl, h₁, h₂⟩
    · obtain ⟨rfl, rfl⟩ := returns_ret.1 h₂
      exact Or.inl ⟨a, by simpa using h₁, rfl⟩
  · rintro (⟨a, h, rfl⟩ | ⟨tr₁, tr₂, e, rfl, h₁, h₂⟩)
    · exact ⟨tr, [], .ok a, by simp, h, returns_ret.2 ⟨rfl, rfl⟩⟩
    · exact ⟨tr₁, tr₂, .error e, rfl, h₁, h₂⟩

/-- Run a sequence against answers: the first part returns, and the rest goes on. -/
theorem serve_run_bind {σ : Type} {answer : σ → (i : ι) → ρ i × σ} {s s' : σ}
    {x : ExceptT ε (Prog ι ρ) α} {tr : List (Event ι ρ)} {a : α}
    (h : serve answer s x.run = (tr, .ok a, s')) (f : α → ExceptT ε (Prog ι ρ) β) :
    serve answer s (x >>= f).run =
      (tr ++ (serve answer s' (f a).run).1, (serve answer s' (f a).run).2) := by
  rw [ExceptT.run_bind, serve_bind, h]

theorem only_run_bind {P : Event ι ρ → Prop} {x : ExceptT ε (Prog ι ρ) α}
    {f : α → ExceptT ε (Prog ι ρ) β} (hx : Only P x.run) (hf : ∀ a, Only P (f a).run) :
    Only P (x >>= f).run := by
  rw [ExceptT.run_bind]
  refine only_bind hx fun o => ?_
  cases o with
  | ok a => exact hf a
  | error e => trivial

theorem only_run_tryCatch {P : Event ι ρ → Prop} {x : ExceptT ε (Prog ι ρ) α}
    {c : ε → ExceptT ε (Prog ι ρ) α} (hx : Only P x.run) (hc : ∀ e, Only P (c e).run) :
    Only P (tryCatch x c).run := by
  rw [run_tryCatch]
  refine only_bind hx fun o => ?_
  cases o with
  | ok a => trivial
  | error e => exact hc e

end Raising

end Prog

end Effects
