import HermesRuntime.Lib.Prog
import Mathlib.Data.List.Induction

/-!
# Programs interleaved over a shared world

Any number of programs run side by side over one world. A step either answers the call one
program waits at, or is a step of the surroundings (the clock, another party). The meaning of
calls is a relation, so an answer may fail, or depend on what everyone else did meanwhile.

* `Semantics.Run c ls c'` — the interleaving labelled `ls` leads from `c` to `c'`.
* `Run.reach` — the events of one program in an interleaving are a trace of that program, so
  whatever `Prog.Returns` says of the program alone holds in company.
* `Run.invariant` — what every step preserves, every interleaving preserves.
* `exists_run_ret` — a program whose calls can all be answered has a run to its end.
* `Run.log_iff` — what an interleaving adds to a log is what its steps add.
* `alone` — one program answered for as long as there are answers.
* `Driver` — a deterministic choice of answers, to build concrete interleavings by running.
-/

namespace Effects

variable {π ι η σ α : Type} {ρ : ι → Type}

/-- A step of an interleaving: program `p` is answered, or the surroundings move. -/
inductive Label (π ι : Type) (ρ : ι → Type) (η : Type) : Type where
  | call (p : π) (e : Event ι ρ)
  | env (x : η)

namespace Label

/-- The event of program `p` in this step, if it is one of `p`'s. -/
def eventOf [DecidableEq π] (p : π) : Label π ι ρ η → Option (Event ι ρ)
  | .call q e => if q = p then some e else none
  | .env _ => none

@[simp] theorem eventOf_call_self [DecidableEq π] (p : π) (e : Event ι ρ) :
    (Label.call p e : Label π ι ρ η).eventOf p = some e := by simp [eventOf]
@[simp] theorem eventOf_env [DecidableEq π] (p : π) (x : η) :
    (Label.env x : Label π ι ρ η).eventOf p = none := rfl

theorem eventOf_call_ne [DecidableEq π] {p q : π} (h : q ≠ p) (e : Event ι ρ) :
    (Label.call q e : Label π ι ρ η).eventOf p = none := by simp [eventOf, h]

end Label

/-- The events of program `p` in an interleaving, in order. -/
def eventsOf [DecidableEq π] (p : π) (ls : List (Label π ι ρ η)) : List (Event ι ρ) :=
  ls.filterMap (Label.eventOf p)

@[simp] theorem eventsOf_nil [DecidableEq π] (p : π) :
    eventsOf p ([] : List (Label π ι ρ η)) = [] := rfl

@[simp] theorem eventsOf_env_cons [DecidableEq π] (p : π) (x : η) (ls : List (Label π ι ρ η)) :
    eventsOf p (.env x :: ls) = eventsOf p ls := rfl

@[simp] theorem eventsOf_append [DecidableEq π] (p : π) (ls ls' : List (Label π ι ρ η)) :
    eventsOf p (ls ++ ls') = eventsOf p ls ++ eventsOf p ls' := by simp [eventsOf]

theorem eventsOf_singleton [DecidableEq π] (p : π) (l : Label π ι ρ η) :
    eventsOf p [l] = (l.eventOf p).toList := by
  cases h : l.eventOf p <;> simp [eventsOf, h]

theorem mem_eventsOf [DecidableEq π] {p : π} {ls : List (Label π ι ρ η)} {e : Event ι ρ} :
    e ∈ eventsOf p ls ↔ Label.call p e ∈ ls := by
  simp only [eventsOf, List.mem_filterMap]
  constructor
  · rintro ⟨l, hl, he⟩
    cases l with
    | call q e' =>
        simp only [Label.eventOf, Option.ite_none_right_eq_some, Option.some.injEq] at he
        obtain ⟨rfl, rfl⟩ := he
        exact hl
    | env x => simp at he
  · exact fun h => ⟨_, h, by simp⟩

@[simp] theorem eventsOf_map_call [DecidableEq π] (p : π) (es : List (Event ι ρ)) :
    eventsOf p (es.map (.call p) : List (Label π ι ρ η)) = es := by
  simp [eventsOf, List.filterMap_map]

/-- Cut an interleaving at an event of one program. -/
theorem eventsOf_split [DecidableEq π] {p : π} {ls : List (Label π ι ρ η)}
    {pre post : List (Event ι ρ)} {e : Event ι ρ} (h : eventsOf p ls = pre ++ e :: post) :
    ∃ ls₁ ls₂, ls = ls₁ ++ .call p e :: ls₂ ∧ eventsOf p ls₁ = pre ∧ eventsOf p ls₂ = post := by
  obtain ⟨ls₁, ls', rfl, hpre, hrest⟩ := List.filterMap_eq_append_iff.1 h
  obtain ⟨skipped, l, ls₂, rfl, hskip, hl, hpost⟩ := List.filterMap_eq_cons_iff.1 hrest
  have heq : l = .call p e := by
    cases l with
    | call q e' =>
        simp only [Label.eventOf, Option.ite_none_right_eq_some, Option.some.injEq] at hl
        rw [hl.1, hl.2]
    | env x => simp at hl
  refine ⟨ls₁ ++ skipped, ls₂, by simp [heq], ?_, hpost⟩
  have hnil : eventsOf p skipped = [] := List.filterMap_eq_nil_iff.2 hskip
  rw [eventsOf_append, hnil, List.append_nil]
  exact hpre

/-- Every program, and the world they share. -/
structure Config (π ι : Type) (ρ : ι → Type) (α σ : Type) where
  progs : π → Prog ι ρ α
  world : σ

/-- What calls may be answered and do to the world, and how the surroundings may move it. -/
structure Semantics (π ι : Type) (ρ : ι → Type) (η σ : Type) where
  answer : π → Event ι ρ → σ → σ → Prop
  surround : η → σ → σ → Prop

namespace Semantics

variable [DecidableEq π] (S : Semantics π ι ρ η σ)

/-- One step of an interleaving. -/
inductive Step : Config π ι ρ α σ → Label π ι ρ η → Config π ι ρ α σ → Prop
  | call {c : Config π ι ρ α σ} {p : π} {i : ι} {k : ρ i → Prog ι ρ α} {r : ρ i} {w : σ}
      (hp : c.progs p = .call i k) (ha : S.answer p ⟨i, r⟩ c.world w) :
      Step c (.call p ⟨i, r⟩) ⟨Function.update c.progs p (k r), w⟩
  | env {c : Config π ι ρ α σ} {x : η} {w : σ} (hs : S.surround x c.world w) :
      Step c (.env x) ⟨c.progs, w⟩

/-- An interleaving: finitely many steps, last one outermost. -/
inductive Run (c : Config π ι ρ α σ) : List (Label π ι ρ η) → Config π ι ρ α σ → Prop
  | refl : Run c [] c
  | snoc {ls : List (Label π ι ρ η)} {l : Label π ι ρ η} {m c' : Config π ι ρ α σ}
      (hr : Run c ls m) (hs : S.Step m l c') : Run c (ls ++ [l]) c'

/-- An interleaving `ls` from `c` to `c'` may pass the step `l` from `m` to `m'`. -/
def Passes (c : Config π ι ρ α σ) (ls : List (Label π ι ρ η)) (c' m : Config π ι ρ α σ)
    (l : Label π ι ρ η) (m' : Config π ι ρ α σ) : Prop :=
  ∃ pre post, ls = pre ++ l :: post ∧ Run S c pre m ∧ Step S m l m' ∧ Run S m' post c'

variable {S} {c m c' : Config π ι ρ α σ} {ls ls' : List (Label π ι ρ η)} {l : Label π ι ρ η}

theorem Run.trans (h : S.Run c ls m) (h' : S.Run m ls' c') : S.Run c (ls ++ ls') c' := by
  induction h' with
  | refl => simpa using h
  | snoc _ hs ih =>
      rw [← List.append_assoc]
      exact .snoc ih hs

theorem Run.single (h : S.Step c l c') : S.Run c [l] c' := .snoc .refl h

theorem Run.head (h : S.Step c l m) (h' : S.Run m ls c') : S.Run c (l :: ls) c' :=
  (Run.single h).trans h'

theorem run_nil (h : S.Run c [] c') : c' = c := by
  generalize hl : ([] : List (Label π ι ρ η)) = ll at h
  cases h with
  | refl => rfl
  | snoc => simp at hl

/-- The last step of an interleaving. -/
theorem Run.last (h : S.Run c (ls ++ [l]) c') : ∃ m, S.Run c ls m ∧ S.Step m l c' := by
  generalize hl : ls ++ [l] = ll at h
  cases h with
  | refl => simp at hl
  | @snoc ls' l' m _ hr hs =>
      obtain ⟨rfl, h₁⟩ := List.append_inj' hl rfl
      obtain rfl := List.singleton_inj.1 h₁
      exact ⟨m, hr, hs⟩

/-- An interleaving can be cut anywhere. -/
theorem Run.split (h : S.Run c (ls ++ ls') c') : ∃ m, S.Run c ls m ∧ S.Run m ls' c' := by
  induction ls' using List.reverseRecOn generalizing c' with
  | nil => exact ⟨c', by simpa using h, .refl⟩
  | append_singleton ls' l ih =>
      rw [← List.append_assoc] at h
      obtain ⟨m', hr, hs⟩ := h.last
      obtain ⟨m, h₁, h₂⟩ := ih hr
      exact ⟨m, h₁, .snoc h₂ hs⟩

/-- Cut an interleaving at one of its steps. -/
theorem Run.split_at (h : S.Run c (ls ++ l :: ls') c') :
    ∃ m m', S.Run c ls m ∧ S.Step m l m' ∧ S.Run m' ls' c' := by
  rw [← List.singleton_append, ← List.append_assoc] at h
  obtain ⟨m', h₁, h₂⟩ := h.split
  obtain ⟨m, h₁, hs⟩ := h₁.last
  exact ⟨m, m', h₁, hs, h₂⟩

/-- Every label of an interleaving is that of one of its steps. -/
theorem Run.step_of_mem (h : S.Run c ls c') (hl : l ∈ ls) :
    ∃ m m' : Config π ι ρ α σ, S.Step m l m' := by
  obtain ⟨pre, post, rfl⟩ := List.append_of_mem hl
  obtain ⟨m, m', -, hs, -⟩ := h.split_at
  exact ⟨m, m', hs⟩

/-- The first step of an interleaving. -/
theorem Run.uncons (h : S.Run c (l :: ls) c') : ∃ m, S.Step c l m ∧ S.Run m ls c' := by
  obtain ⟨m, m', h₁, hs, h₂⟩ := Run.split_at (List.nil_append (l :: ls) ▸ h)
  obtain rfl := run_nil h₁
  exact ⟨m', hs, h₂⟩

/-- **What every step preserves, every interleaving preserves.** -/
theorem Run.invariant (I : Config π ι ρ α σ → Prop) (h : S.Run c ls c') (h₀ : I c)
    (hI : ∀ {m l m'}, l ∈ ls → S.Step m l m' → I m → I m') : I c' := by
  induction h with
  | refl => exact h₀
  | snoc _ hs ih =>
      exact hI (by simp) hs (ih fun hl => hI (List.mem_append_left _ hl))

/-- **In company a program still runs its own traces.** -/
theorem Run.reach (h : S.Run c ls c') (p : π) :
    Prog.Reach (c.progs p) (eventsOf p ls) (c'.progs p) := by
  induction h with
  | refl => exact .refl _
  | @snoc ls l m c' _ hs ih =>
      rw [eventsOf_append, eventsOf_singleton]
      cases hs with
      | @call q i k r w hp ha =>
          by_cases hq : q = p
          · subst hq
            rw [hp] at ih
            simpa using ih.snoc r
          · simpa [Label.eventOf_call_ne hq, Function.update_of_ne (Ne.symm hq)] using ih
      | env => simpa using ih

/-- **A program can be run to its end** where every call of it can be answered. -/
theorem exists_run_ret {p : π} {I : σ → Prop} {P : Event ι ρ → Prop}
    (h : ∀ i w, I w → ∃ r w', S.answer p ⟨i, r⟩ w w' ∧ I w' ∧ P ⟨i, r⟩)
    (c : Config π ι ρ α σ) (hc : I c.world) :
    ∃ ls c' a, S.Run c ls c' ∧ c'.progs p = .ret a ∧ ∀ e ∈ eventsOf p ls, P e := by
  generalize hp : c.progs p = q
  induction q generalizing c with
  | ret a => exact ⟨[], c, a, .refl, hp, List.forall_mem_nil _⟩
  | call i k ih =>
      obtain ⟨r, w, ha, hw, hr⟩ := h i c.world hc
      obtain ⟨ls, c', a, hrun, hret, hls⟩ :=
        ih r ⟨Function.update c.progs p (k r), w⟩ hw (Function.update_self p _ _)
      refine ⟨.call p ⟨i, r⟩ :: ls, c', a, .head (.call hp ha) hrun, hret, fun e he => ?_⟩
      rw [mem_eventsOf] at he
      rcases List.mem_cons.1 he with heq | he
      · cases heq
        exact hr
      · exact hls e (mem_eventsOf.2 he)

/-! ### One program at a time -/

/-- Answer the calls of one program by `f`, for as long as it has answers: the events, what is
left of the program, and the world. -/
def alone (f : σ → (i : ι) → Option (ρ i × σ)) :
    Prog ι ρ α → σ → List (Event ι ρ) × Prog ι ρ α × σ
  | .ret a, w => ([], .ret a, w)
  | .call i k, w =>
      match f w i with
      | none => ([], .call i k, w)
      | some (r, w') =>
          let (es, q, last) := alone f (k r) w'
          (⟨i, r⟩ :: es, q, last)

/-- A program answered alone is an interleaving. -/
theorem run_alone {p : π} {f : σ → (i : ι) → Option (ρ i × σ)}
    (hf : ∀ {w i r w'}, f w i = some (r, w') → S.answer p ⟨i, r⟩ w w') (c : Config π ι ρ α σ) :
    S.Run c ((alone f (c.progs p) c.world).1.map (.call p))
      ⟨Function.update c.progs p (alone f (c.progs p) c.world).2.1,
        (alone f (c.progs p) c.world).2.2⟩ := by
  generalize hq : c.progs p = q
  induction q generalizing c with
  | ret a =>
      have hsame : Function.update c.progs p (.ret a) = c.progs := by
        rw [← hq, Function.update_eq_self]
      rw [alone, hsame]
      exact .refl
  | call i k ih =>
      unfold alone
      split
      · have hsame : Function.update c.progs p (.call i k) = c.progs := by
          rw [← hq, Function.update_eq_self]
        rw [hsame]
        exact .refl
      · rename_i r w hanswer
        have hrest := ih r ⟨Function.update c.progs p (k r), w⟩ (Function.update_self p _ _)
        rw [Function.update_idem] at hrest
        exact .head (.call hq (hf hanswer)) hrest

/-- Its events are a trace of the program. -/
theorem reach_alone (f : σ → (i : ι) → Option (ρ i × σ)) (p : Prog ι ρ α) (w : σ) :
    Prog.Reach p (alone f p w).1 (alone f p w).2.1 := by
  induction p generalizing w with
  | ret a => exact .refl _
  | call i k ih =>
      unfold alone
      split
      · exact .refl _
      · exact .call (ih _ _)

/-! ### Logs -/

variable {ε : Type}

/-- What every step adds to, every interleaving adds to. -/
theorem Run.log_prefix (log : Config π ι ρ α σ → List ε)
    (hgrow : ∀ {m l m'}, S.Step m l m' → log m <+: log m')
    (h : S.Run c ls c') : log c <+: log c' := by
  induction h with
  | refl => exact List.prefix_refl _
  | snoc _ hs ih => exact ih.trans (hgrow hs)

/-- **What an interleaving adds to a log is what its steps add**: it all satisfies `P` exactly
when every step that may be passed is one whose entries do. -/
theorem Run.log_iff (log : Config π ι ρ α σ → List ε) {P : ε → Prop}
    {Q : Config π ι ρ α σ → Label π ι ρ η → Config π ι ρ α σ → Prop}
    (hgrow : ∀ {m l m'}, S.Step m l m' → log m <+: log m') (h : S.Run c ls c')
    (hQ : ∀ {m l m' new}, l ∈ ls → S.Step m l m' → log m' = log m ++ new →
      ((∀ e ∈ new, P e) ↔ Q m l m')) {new : List ε} (hnew : log c' = log c ++ new) :
    (∀ e ∈ new, P e) ↔ ∀ m l m', S.Passes c ls c' m l m' → Q m l m' := by
  constructor
  · intro hP m l m' ⟨pre, post, hls, hpre, hs, hpost⟩
    obtain ⟨before, hbefore⟩ := hpre.log_prefix log hgrow
    obtain ⟨now, hnow⟩ := hgrow hs
    obtain ⟨after, hafter⟩ := hpost.log_prefix log hgrow
    have hsplit : new = before ++ (now ++ after) := by
      rw [← hafter, ← hnow, ← hbefore, List.append_assoc, List.append_assoc] at hnew
      exact (List.append_cancel_left hnew).symm
    refine (hQ (by simp [hls]) hs hnow.symm).1 fun e he => hP e ?_
    rw [hsplit]
    exact List.mem_append_right _ (List.mem_append_left _ he)
  · intro hsteps
    induction h generalizing new with
    | refl =>
        rw [List.self_eq_append_right.1 hnew]
        exact nofun
    | @snoc ls l m c' hr hs ih =>
        obtain ⟨before, hbefore⟩ := hr.log_prefix log hgrow
        obtain ⟨now, hnow⟩ := hgrow hs
        have hsplit : new = before ++ now := by
          rw [← hnow, ← hbefore, List.append_assoc] at hnew
          exact (List.append_cancel_left hnew).symm
        have hfirst : ∀ e ∈ before, P e := by
          refine ih (fun hl => hQ (List.mem_append_left _ hl)) hbefore.symm fun x l' x' hx => ?_
          obtain ⟨pre, post, hls, hpre, hs', hpost⟩ := hx
          exact hsteps x l' x' ⟨pre, post ++ [l], by simp [hls], hpre, hs', .snoc hpost hs⟩
        have hlast : ∀ e ∈ now, P e :=
          (hQ (by simp) hs hnow.symm).2 (hsteps m l c' ⟨ls, [], rfl, hr, hs, .refl⟩)
        intro e he
        rw [hsplit] at he
        rcases List.mem_append.1 he with he | he
        · exact hfirst e he
        · exact hlast e he

end Semantics

/-- A deterministic choice of answers and of the surroundings' steps. -/
structure Driver (S : Semantics π ι ρ η σ) where
  answer : π → (i : ι) → σ → ρ i × σ
  answer_sound : ∀ p i w, S.answer p ⟨i, (answer p i w).1⟩ w (answer p i w).2
  surround : η → σ → Option σ
  surround_sound : ∀ {x w w'}, surround x w = some w' → S.surround x w w'

namespace Driver

variable [DecidableEq π] {S : Semantics π ι ρ η σ}

/-- Follow a schedule: whose turn it is, or which step the surroundings take. Turns of
programs that have returned, and steps the surroundings refuse, are skipped. -/
def run (d : Driver S) : List (π ⊕ η) → Config π ι ρ α σ →
    List (Label π ι ρ η) × Config π ι ρ α σ
  | [], c => ([], c)
  | .inl p :: rest, c =>
      match c.progs p with
      | .ret _ => d.run rest c
      | .call i k =>
          let a := d.answer p i c.world
          let (ls, c') := d.run rest ⟨Function.update c.progs p (k a.1), a.2⟩
          (.call p ⟨i, a.1⟩ :: ls, c')
  | .inr x :: rest, c =>
      match d.surround x c.world with
      | none => d.run rest c
      | some w =>
          let (ls, c') := d.run rest ⟨c.progs, w⟩
          (.env x :: ls, c')

/-- What a driver does is an interleaving. -/
theorem run_sound (d : Driver S) (sched : List (π ⊕ η)) (c : Config π ι ρ α σ) :
    S.Run c (d.run sched c).1 (d.run sched c).2 := by
  induction sched generalizing c with
  | nil => exact .refl
  | cons s rest ih =>
      cases s with
      | inl p =>
          unfold run
          split
          · exact ih c
          · rename_i i k hp
            exact .head (.call hp (d.answer_sound p i c.world)) (ih _)
      | inr x =>
          unfold run
          split
          · exact ih c
          · rename_i w hw
            exact .head (.env (d.surround_sound hw)) (ih _)

/-- Along a schedule of turns there are calls only, of the programs whose turns they are. -/
theorem mem_run_turns (d : Driver S) {turns : List π} {c : Config π ι ρ α σ} {l : Label π ι ρ η}
    (h : l ∈ (d.run (turns.map .inl) c).1) : ∃ p ∈ turns, ∃ e, l = .call p e := by
  induction turns generalizing c with
  | nil => cases h
  | cons p turns ih =>
      have hrest : ∀ {c' : Config π ι ρ α σ}, l ∈ (d.run (turns.map .inl) c').1 →
          ∃ p' ∈ p :: turns, ∃ e, l = .call p' e := by
        intro c' hl
        obtain ⟨p', hp', e, he⟩ := ih hl
        exact ⟨p', List.mem_cons_of_mem _ hp', e, he⟩
      rw [List.map_cons] at h
      unfold run at h
      split at h
      · exact hrest h
      · rcases List.mem_cons.1 h with rfl | h
        · exact ⟨p, List.mem_cons_self, _, rfl⟩
        · exact hrest h

end Driver

end Effects
