import HermesRuntime.Lib.Prog

/-!
# Handlers

A handler carries out each call of a program by a program of its own, over calls of another
kind: the layers of a system, where what one layer calls is what the next one does.

* `handle h p` — the program `p`, its calls carried out by `h`.
* `Carries h tr tr'` — carrying out the events `tr` takes the events `tr'`.
* `returns_handle` — the runs of a handled program are the runs of the program, carried out.
* `call_handle` — a handled program that is at a call: which call of the program this is part of.
* `call_at_bind`, `call_run_bind`, `call_run_tryCatch` — the same for sequences.
* `advance` — a run as far as there are answers, to build concrete runs by evaluation.
-/

namespace Effects

namespace Prog

variable {ι κ : Type} {ρ : ι → Type} {θ : κ → Type} {α β : Type}

/-- The program `p`, its calls carried out by `h`. -/
def handle (h : (i : ι) → Prog κ θ (ρ i)) : Prog ι ρ α → Prog κ θ α
  | .ret a => .ret a
  | .call i k => h i >>= fun r => handle h (k r)

/-- Carrying out the events of the first list takes those of the second. -/
inductive Carries (h : (i : ι) → Prog κ θ (ρ i)) : List (Event ι ρ) → List (Event κ θ) → Prop
  | nil : Carries h [] []
  | cons {i : ι} {r : ρ i} {tr : List (Event ι ρ)} {own rest : List (Event κ θ)}
      (hown : Returns (h i) own r) (hrest : Carries h tr rest) :
      Carries h (⟨i, r⟩ :: tr) (own ++ rest)

variable {h : (i : ι) → Prog κ θ (ρ i)}

@[simp] theorem handle_ret (a : α) : handle h (.ret a : Prog ι ρ α) = .ret a := rfl

@[simp] theorem handle_call (i : ι) (k : ρ i → Prog ι ρ α) :
    handle h (.call i k) = h i >>= fun r => handle h (k r) := rfl

/-- A sequence is carried out one part after the other. -/
theorem handle_bind (p : Prog ι ρ α) (f : α → Prog ι ρ β) :
    handle h (p >>= f) = handle h p >>= fun a => handle h (f a) := by
  induction p with
  | ret a => rfl
  | call i k ih =>
      rw [call_bind, handle_call, handle_call, bind_assoc]
      congr 1
      funext r
      exact ih r

/-! ## Traces -/

/-- A program that has come so far, and what it was part of. -/
theorem reach_bind {p : Prog ι ρ α} {f : α → Prog ι ρ β} {tr : List (Event ι ρ)}
    {q : Prog ι ρ β} (hr : Reach (p >>= f) tr q) :
    (∃ q', Reach p tr q' ∧ q = q' >>= f) ∨
      ∃ tr₁ tr₂ a, tr = tr₁ ++ tr₂ ∧ Returns p tr₁ a ∧ Reach (f a) tr₂ q := by
  induction p generalizing tr with
  | ret a => exact Or.inr ⟨[], tr, a, rfl, .refl _, hr⟩
  | call i k ih =>
      cases hr with
      | refl => exact Or.inl ⟨_, .refl _, rfl⟩
      | @call _ _ r tr' _ hr =>
          rcases ih r hr with ⟨q', hq, rfl⟩ | ⟨tr₁, tr₂, a, rfl, hp, hq⟩
          · exact Or.inl ⟨q', .call hq, rfl⟩
          · exact Or.inr ⟨⟨i, r⟩ :: tr₁, tr₂, a, rfl, .call hp, hq⟩

theorem reach_ret {a : α} {tr : List (Event ι ρ)} {q : Prog ι ρ α} (hr : Reach (.ret a) tr q) :
    tr = [] ∧ q = .ret a := by
  cases hr
  exact ⟨rfl, rfl⟩

/-- **The runs of a handled program** are those of the program, carried out. -/
theorem returns_handle {p : Prog ι ρ α} {low : List (Event κ θ)} {a : α} :
    Returns (handle h p) low a ↔ ∃ tr, Returns p tr a ∧ Carries h tr low := by
  induction p generalizing low with
  | ret b =>
      constructor
      · intro hr
        obtain ⟨rfl, rfl⟩ := returns_ret.1 hr
        exact ⟨[], .refl _, .nil⟩
      · rintro ⟨tr, hr, hc⟩
        obtain ⟨rfl, rfl⟩ := returns_ret.1 hr
        cases hc
        exact .refl _
  | call i k ih =>
      rw [handle_call, returns_bind]
      constructor
      · rintro ⟨own, rest, r, rfl, hown, hrest⟩
        obtain ⟨tr, hr, hc⟩ := (ih r).1 hrest
        exact ⟨⟨i, r⟩ :: tr, .call hr, .cons hown hc⟩
      · rintro ⟨tr, hr, hc⟩
        cases hr with
        | @call _ _ r tr _ hr =>
            cases hc with
            | @cons _ _ _ own rest hown hrest =>
                exact ⟨own, rest, r, rfl, hown, (ih r).2 ⟨tr, hr, hrest⟩⟩

/-- What carried out one of the events. -/
theorem Carries.own {tr : List (Event ι ρ)} {low : List (Event κ θ)} (hc : Carries h tr low)
    {i : ι} {r : ρ i} (hmem : (⟨i, r⟩ : Event ι ρ) ∈ tr) :
    ∃ before own after, low = before ++ own ++ after ∧ Returns (h i) own r := by
  induction hc with
  | nil => cases hmem
  | @cons j r' tr own rest hown hrest ih =>
      rcases List.mem_cons.1 hmem with heq | hmem
      · cases heq
        exact ⟨[], own, rest, rfl, hown⟩
      · obtain ⟨before, own', after, rfl, hret⟩ := ih hmem
        exact ⟨own ++ before, own', after, by simp only [List.append_assoc], hret⟩

/-- What carries out a trace is part of what carries out one of its events. -/
theorem Carries.origin {tr : List (Event ι ρ)} {low : List (Event κ θ)} (hc : Carries h tr low)
    {e : Event κ θ} (he : e ∈ low) :
    ∃ i r own, (⟨i, r⟩ : Event ι ρ) ∈ tr ∧ Returns (h i) own r ∧ e ∈ own := by
  induction hc with
  | nil => cases he
  | @cons i r tr own rest hown hrest ih =>
      rcases List.mem_append.1 he with he | he
      · exact ⟨i, r, own, List.mem_cons_self, hown, he⟩
      · obtain ⟨j, r', own', hmem, hret, he⟩ := ih he
        exact ⟨j, r', own', List.mem_cons_of_mem _ hmem, hret, he⟩

/-- The part of a trace before one of its events. -/
theorem Reach.before {p q : Prog ι ρ α} {pre post : List (Event ι ρ)} {i : ι} {r : ρ i}
    (hr : Reach p (pre ++ ⟨i, r⟩ :: post) q) :
    ∃ k : ρ i → Prog ι ρ α, Reach p pre (.call i k) ∧ Reach (k r) post q := by
  induction pre generalizing p with
  | nil =>
      cases hr with
      | @call _ k _ _ _ hr => exact ⟨k, .refl _, hr⟩
  | cons ev pre ih =>
      cases hr with
      | call hr =>
          obtain ⟨k, hpre, hpost⟩ := ih hr
          exact ⟨k, .call hpre, hpost⟩

/-! ## The call a program is at -/

section Call

variable {ε : Type}

theorem not_reach_ret {a : α} {tr : List (Event ι ρ)} {i : ι} {k : ρ i → Prog ι ρ α} :
    ¬ Reach (.ret a) tr (.call i k) :=
  fun hr => nomatch (reach_ret hr).2

/-- A sequence that is at a call is in its first part, or in what comes after. -/
theorem call_at_bind {p : Prog ι ρ α} {f : α → Prog ι ρ β} {tr : List (Event ι ρ)} {i : ι}
    {k : ρ i → Prog ι ρ β} (hr : Reach (p >>= f) tr (.call i k)) :
    (∃ k', Reach p tr (.call i k')) ∨
      ∃ before own a, tr = before ++ own ∧ Returns p before a ∧ Reach (f a) own (.call i k) := by
  rcases reach_bind hr with ⟨q, hp, hq⟩ | hrest
  · cases q with
    | ret a => exact Or.inr ⟨tr, [], a, (List.append_nil tr).symm, hp, hq ▸ .refl _⟩
    | call j k' =>
        cases hq
        exact Or.inl ⟨k', hp⟩
  · exact Or.inr hrest

/-- **A handled program that is at a call** is carrying out one of the calls of the program. -/
theorem call_handle {p : Prog ι ρ α} {low : List (Event κ θ)} {j : κ} {k : θ j → Prog κ θ α}
    (hr : Reach (handle h p) low (.call j k)) : ∃ tr i k' done own k'',
      Reach p tr (.call i k') ∧ Carries h tr done ∧ low = done ++ own ∧
        Reach (h i) own (.call j k'') := by
  induction p generalizing low with
  | ret a => exact absurd hr not_reach_ret
  | call i k' ih =>
      rcases call_at_bind hr with ⟨k'', hq⟩ | ⟨own, rest, r, rfl, hown, hrest⟩
      · exact ⟨[], i, k', [], low, k'', .refl _, .nil, rfl, hq⟩
      · obtain ⟨tr, i', k₁, done, own', k₂, hp, hc, rfl, hq⟩ := ih r hrest
        exact ⟨⟨i, r⟩ :: tr, i', k₁, own ++ done, own', k₂, .call hp, .cons hown hc,
          (List.append_assoc own done own').symm, hq⟩

theorem call_run_bind {x : ExceptT ε (Prog ι ρ) α} {f : α → ExceptT ε (Prog ι ρ) β}
    {tr : List (Event ι ρ)} {i : ι} {k : ρ i → Prog ι ρ (Except ε β)}
    (hr : Reach (x >>= f).run tr (.call i k)) : (∃ k', Reach x.run tr (.call i k')) ∨
      ∃ before own a, tr = before ++ own ∧ Returns x.run before (.ok a) ∧
        Reach (f a).run own (.call i k) := by
  rw [ExceptT.run_bind] at hr
  rcases call_at_bind hr with hx | ⟨before, own, o, rfl, hx, hf⟩
  · exact Or.inl hx
  · cases o with
    | ok a => exact Or.inr ⟨before, own, a, rfl, hx, hf⟩
    | error exc => exact absurd hf not_reach_ret

theorem call_run_tryCatch {x : ExceptT ε (Prog ι ρ) α} {c : ε → ExceptT ε (Prog ι ρ) α}
    {tr : List (Event ι ρ)} {i : ι} {k : ρ i → Prog ι ρ (Except ε α)}
    (hr : Reach (tryCatch x c).run tr (.call i k)) : (∃ k', Reach x.run tr (.call i k')) ∨
      ∃ before own exc, tr = before ++ own ∧ Returns x.run before (.error exc) ∧
        Reach (c exc).run own (.call i k) := by
  rw [run_tryCatch] at hr
  rcases call_at_bind hr with hx | ⟨before, own, o, rfl, hx, hf⟩
  · exact Or.inl hx
  · cases o with
    | ok a => exact absurd hf not_reach_ret
    | error exc => exact Or.inr ⟨before, own, exc, rfl, hx, hf⟩

end Call

/-! ## Running as far as there are answers -/

/-- Run `p` where every call `i` is answered with `f i`, up to the first that is not. -/
def advance (f : (i : ι) → Option (ρ i)) : Prog ι ρ α → List (Event ι ρ) × Prog ι ρ α
  | .ret a => ([], .ret a)
  | .call i k =>
      match f i with
      | none => ([], .call i k)
      | some r => (⟨i, r⟩ :: (advance f (k r)).1, (advance f (k r)).2)

theorem reach_advance (f : (i : ι) → Option (ρ i)) (p : Prog ι ρ α) :
    Reach p (advance f p).1 (advance f p).2 := by
  induction p with
  | ret a => exact .refl _
  | call i k ih =>
      unfold advance
      cases f i with
      | none => exact .refl _
      | some r => exact .call (ih r)

/-- Its events are the answers it was given. -/
theorem answers_advance (f : (i : ι) → Option (ρ i)) (p : Prog ι ρ α) :
    ∀ e ∈ (advance f p).1, f e.1 = some e.2 := by
  induction p with
  | ret a => exact List.forall_mem_nil _
  | call i k ih =>
      unfold advance
      cases hi : f i with
      | none => exact List.forall_mem_nil _
      | some r => exact List.forall_mem_cons.2 ⟨hi, ih r⟩

/-- Such a run that gets to the end. -/
theorem returns_advance {f : (i : ι) → Option (ρ i)} {p : Prog ι ρ α} {a : α}
    (h : (advance f p).2.result = some a) : Returns p (advance f p).1 a := by
  have hreach := reach_advance f p
  rw [ret_of_result h] at hreach
  exact hreach

/-- An event such a run makes, and what comes before it. -/
theorem exists_advance {f : (i : ι) → Option (ρ i)} {p : Prog ι ρ α} {P : ι → Bool}
    (h : (advance f p).1.any (fun e => P e.1) = true) :
    ∃ pre i r post q, P i = true ∧ (advance f p).1 = pre ++ ⟨i, r⟩ :: post ∧
      Reach p (pre ++ ⟨i, r⟩ :: post) q := by
  obtain ⟨⟨i, r⟩, hmem, hi⟩ := List.any_eq_true.1 h
  obtain ⟨pre, post, heq⟩ := List.append_of_mem hmem
  exact ⟨pre, i, r, post, (advance f p).2, hi, heq, heq ▸ reach_advance f p⟩

end Prog

end Effects
