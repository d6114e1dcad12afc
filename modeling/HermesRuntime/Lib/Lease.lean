import HermesRuntime.Lib.Machine
import Mathlib.Data.Finset.Insert
import Mathlib.Data.Finset.Lattice.Basic
import Mathlib.Logic.Function.Basic

/-!
# Leases

Each of a family of resources is leased to one owner at a time, until a time that its owner may
put off. An owner gets one lease in its life. A lease ends when its owner closes it, or when
anybody asks after it has expired. The owner that closes it may leave the resource parked: then
nobody gets it until it is unparked.

* `Leases.step` — a request at a time: granted and done, or refused without a trace.
* `freed_of_holds` — a lease that is gone was ended, and where it was parked unparked.
* `acquired_apart` — between two leases of one resource the first one ends.
* `acquired_of_holds` — who holds a lease acquired it, and nothing has ended it since.
-/

namespace Leasing

open Machines

variable {ι ρ τ : Type}

/-- How a resource stands. -/
inductive Slot (ρ τ : Type) where
  | free
  | held (owner : ρ) (expiry : τ)
  | parked (owner : ρ)
  deriving DecidableEq

/-- What can be asked for. -/
inductive Request (ι ρ τ : Type) where
  | acquire (i : ι) (r : ρ) (expiry : τ)
  | renew (i : ι) (r : ρ) (expiry : τ)
  | close (i : ι) (r : ρ) (park : Bool)
  | expire (i : ι)
  | unpark (i : ι)
  deriving DecidableEq

/-- How every resource stands, and which owners have had a lease. -/
structure Leases (ι ρ τ : Type) where
  slot : ι → Slot ρ τ
  used : Finset ρ

/-- The resource a request is for. -/
def Request.resource : Request ι ρ τ → ι
  | .acquire i _ _ | .renew i _ _ | .close i _ _ | .expire i | .unpark i => i

namespace Leases

/-- Nothing is leased yet. -/
def initial : Leases ι ρ τ := ⟨fun _ => .free, ∅⟩

/-- `r` holds the lease of `i`. -/
def Holds (i : ι) (r : ρ) (s : Leases ι ρ τ) : Prop := ∃ e, s.slot i = .held r e

/-! ## Requests -/

section Grants

variable [DecidableEq ρ] [LinearOrder τ]

/-- The request is granted at the time `t`. -/
def grants (t : τ) (q : Request ι ρ τ) (s : Leases ι ρ τ) : Bool :=
  match q, s.slot q.resource with
  | .acquire _ r _, .free => r ∉ s.used
  | .renew _ r _, .held r' e => r' = r ∧ t < e
  | .close _ r _, .held r' _ => r' = r
  | .expire _, .held _ e => e ≤ t
  | .unpark _, .parked _ => true
  | _, _ => false

variable {s : Leases ι ρ τ} {t : τ} {i : ι} {r : ρ}

theorem grants_acquire_iff {e : τ} :
    grants t (.acquire i r e) s = true ↔ s.slot i = .free ∧ r ∉ s.used := by
  unfold grants
  cases h : s.slot i <;> simp [Request.resource, h]

theorem grants_renew_iff {e : τ} :
    grants t (.renew i r e) s = true ↔ ∃ e', s.slot i = .held r e' ∧ t < e' := by
  unfold grants
  cases h : s.slot i <;> simp [Request.resource, h]

theorem grants_close_iff {park : Bool} :
    grants t (.close i r park) s = true ↔ s.Holds i r := by
  unfold grants Holds
  cases h : s.slot i <;> simp [Request.resource, h]

theorem grants_expire_iff :
    grants t (.expire i) s = true ↔ ∃ r e, s.slot i = .held r e ∧ e ≤ t := by
  unfold grants
  cases h : s.slot i <;> simp [Request.resource, h]

theorem grants_unpark_iff : grants t (.unpark i) s = true ↔ ∃ r, s.slot i = .parked r := by
  unfold grants
  cases h : s.slot i <;> simp [Request.resource, h]

end Grants

/-- What a granted request makes of its resource. -/
def target : Request ι ρ τ → Slot ρ τ
  | .acquire _ r e | .renew _ r e => .held r e
  | .close _ r true => .parked r
  | .close _ _ false | .expire _ | .unpark _ => .free

/-- The owner a granted request makes a used one. -/
def newOwner : Request ι ρ τ → Finset ρ
  | .acquire _ r _ => {r}
  | _ => ∅

section Granted

variable [DecidableEq ι] [DecidableEq ρ]

/-- The leases after a granted request. -/
def granted (q : Request ι ρ τ) (s : Leases ι ρ τ) : Leases ι ρ τ where
  slot := Function.update s.slot q.resource (target q)
  used := s.used ∪ newOwner q

variable {s : Leases ι ρ τ} {q : Request ι ρ τ}

@[simp] theorem slot_granted_self : (granted q s).slot q.resource = target q :=
  Function.update_self _ _ _

theorem slot_granted_of_ne {i : ι} (h : i ≠ q.resource) : (granted q s).slot i = s.slot i :=
  Function.update_of_ne h _ _

theorem mem_used_granted {r : ρ} : r ∈ (granted q s).used ↔ r ∈ s.used ∨ r ∈ newOwner q :=
  Finset.mem_union

end Granted

variable [DecidableEq ι] [DecidableEq ρ] [LinearOrder τ]

/-- A request at a time: it is granted and done, or refused without a trace. -/
def step (s : Leases ι ρ τ) (x : τ × Request ι ρ τ) : Bool × Leases ι ρ τ :=
  if grants x.1 x.2 s then (true, granted x.2 s) else (false, s)

theorem step_cases (s : Leases ι ρ τ) (x : τ × Request ι ρ τ) :
    (grants x.1 x.2 s = true ∧ step s x = (true, granted x.2 s)) ∨
      (grants x.1 x.2 s = false ∧ step s x = (false, s)) := by
  cases h : grants x.1 x.2 s
  · exact Or.inr ⟨rfl, by simp [step, h]⟩
  · exact Or.inl ⟨rfl, by simp [step, h]⟩

/-! ## One request -/

/-- A request with its time and its answer. -/
abbrev Entry (ι ρ τ : Type) : Type := (τ × Request ι ρ τ) × Bool

/-- The entry ends the lease of `i` that `r` holds. -/
def Ends (i : ι) (r : ρ) (e : Entry ι ρ τ) : Prop :=
  e.2 = true ∧ ((∃ park, e.1.2 = .close i r park) ∨ e.1.2 = .expire i)

/-- The entry is a request to leave the resource parked. -/
def Parks (e : Entry ι ρ τ) : Prop := ∃ i r, e.1.2 = .close i r true

/-- The entry unparks `i`. -/
def Unparks (i : ι) (e : Entry ι ρ τ) : Prop := e.2 = true ∧ e.1.2 = .unpark i

section Step

variable {s : Leases ι ρ τ} {x : τ × Request ι ρ τ} {i : ι} {r : ρ}

omit [DecidableEq ι] [DecidableEq ρ] [LinearOrder τ] in
theorem resource_of_ends {e : Entry ι ρ τ} (h : Ends i r e) : e.1.2.resource = i := by
  rcases h.2 with ⟨park, heq⟩ | heq <;> rw [heq] <;> rfl

/-- A lease goes on, or the request ends it and leaves the resource free or parked. -/
theorem holds_step (h : s.Holds i r) (x : τ × Request ι ρ τ) :
    ((step s x).2.Holds i r ∧ ¬ Ends i r (x, (step s x).1)) ∨ (Ends i r (x, (step s x).1) ∧
      ((step s x).2.slot i = .free ∧ ¬ Parks (x, (step s x).1) ∨
        (step s x).2.slot i = .parked r)) := by
  obtain ⟨e, he⟩ := h
  obtain ⟨t, q⟩ := x
  rcases step_cases s (t, q) with ⟨hgrants, hstep⟩ | ⟨-, hstep⟩
  swap
  · rw [hstep]
    exact Or.inl ⟨⟨e, he⟩, fun hends => Bool.false_ne_true hends.1⟩
  rw [hstep]
  by_cases hi : i = q.resource
  swap
  · refine Or.inl ⟨⟨e, by rw [slot_granted_of_ne hi, he]⟩, fun hends => hi ?_⟩
    exact (resource_of_ends hends).symm
  subst hi
  have hslot := slot_granted_self (s := s) (q := q)
  cases q with
  | acquire i r' e' =>
      obtain ⟨hfree, -⟩ := grants_acquire_iff.1 hgrants
      cases he.symm.trans hfree
  | renew i r' e' =>
      obtain ⟨e'', hheld, -⟩ := grants_renew_iff.1 hgrants
      cases he.symm.trans hheld
      refine Or.inl ⟨⟨e', hslot⟩, ?_⟩
      rintro ⟨-, ⟨park, heq⟩ | heq⟩ <;> cases heq
  | close i r' park =>
      obtain ⟨e'', hheld⟩ := grants_close_iff.1 hgrants
      cases he.symm.trans hheld
      refine Or.inr ⟨⟨rfl, Or.inl ⟨park, rfl⟩⟩, ?_⟩
      cases park with
      | false =>
          refine Or.inl ⟨hslot, ?_⟩
          rintro ⟨i', r', heq⟩
          cases heq
      | true => exact Or.inr hslot
  | expire i =>
      refine Or.inr ⟨⟨rfl, Or.inr rfl⟩, Or.inl ⟨hslot, ?_⟩⟩
      rintro ⟨i', r', heq⟩
      cases heq
  | unpark i =>
      obtain ⟨r', hparked⟩ := grants_unpark_iff.1 hgrants
      cases he.symm.trans hparked

/-- A resource that is parked stays so, or the request unparks it. -/
theorem parked_step (h : s.slot i = .parked r) (x : τ × Request ι ρ τ) :
    (step s x).2.slot i = .parked r ∨ Unparks i (x, (step s x).1) := by
  obtain ⟨t, q⟩ := x
  rcases step_cases s (t, q) with ⟨hgrants, hstep⟩ | ⟨-, hstep⟩
  swap
  · rw [hstep]
    exact Or.inl h
  rw [hstep]
  by_cases hi : i = q.resource
  swap
  · exact Or.inl (by rw [slot_granted_of_ne hi, h])
  subst hi
  cases q with
  | acquire i r' e' => cases h.symm.trans (grants_acquire_iff.1 hgrants).1
  | renew i r' e' =>
      obtain ⟨e'', hheld, -⟩ := grants_renew_iff.1 hgrants
      cases h.symm.trans hheld
  | close i r' park =>
      obtain ⟨e'', hheld⟩ := grants_close_iff.1 hgrants
      cases h.symm.trans hheld
  | expire i =>
      obtain ⟨r', e', hheld, -⟩ := grants_expire_iff.1 hgrants
      cases h.symm.trans hheld
  | unpark i => exact Or.inr ⟨rfl, rfl⟩

/-- A lease that begins was acquired. -/
theorem acquired_step (h : (step s x).2.Holds i r) :
    s.Holds i r ∨ (step s x).1 = true ∧ ∃ e, x.2 = .acquire i r e := by
  obtain ⟨t, q⟩ := x
  rcases step_cases s (t, q) with ⟨hgrants, hstep⟩ | ⟨-, hstep⟩
  swap
  · rw [hstep] at h
    exact Or.inl h
  rw [hstep] at h ⊢
  obtain ⟨e, he⟩ := h
  by_cases hi : i = q.resource
  swap
  · rw [slot_granted_of_ne hi] at he
    exact Or.inl ⟨e, he⟩
  subst hi
  rw [slot_granted_self] at he
  cases q with
  | acquire i r' e' =>
      cases he
      exact Or.inr ⟨rfl, e, rfl⟩
  | renew i r' e' =>
      cases he
      obtain ⟨e'', hheld, -⟩ := grants_renew_iff.1 hgrants
      exact Or.inl ⟨e'', hheld⟩
  | close i r' park => cases park <;> cases he
  | expire i => cases he
  | unpark i => cases he

theorem used_step (h : r ∈ s.used) (x : τ × Request ι ρ τ) : r ∈ (step s x).2.used := by
  rcases step_cases s x with ⟨-, hstep⟩ | ⟨-, hstep⟩
  · rw [hstep]
    exact mem_used_granted.2 (Or.inl h)
  · rw [hstep]
    exact h

end Step

/-! ## Histories -/

section Histories

variable {s : Leases ι ρ τ} {xs : List (τ × Request ι ρ τ)} {i : ι} {r : ρ}

/-- **A lease that is gone was ended**, and a resource its end left parked was unparked since. -/
theorem freed_of_holds (h : s.Holds i r) (hfree : (final step xs s).slot i = .free) :
    ∃ pre e post, history step xs s = pre ++ e :: post ∧ Ends i r e ∧
      (Parks e → ∃ e' ∈ post, Unparks i e') := by
  induction xs generalizing s with
  | nil =>
      obtain ⟨e, he⟩ := h
      cases he.symm.trans hfree
  | cons x xs ih =>
      rcases holds_step h x with ⟨hholds, -⟩ | ⟨hends, ⟨hslot, hpark⟩ | hslot⟩
      · obtain ⟨pre, e, post, heq, hends⟩ := ih hholds hfree
        exact ⟨_ :: pre, e, post, by rw [history_cons, heq, List.cons_append], hends⟩
      · exact ⟨[], _, _, rfl, hends, fun hparks => absurd hparks hpark⟩
      · refine ⟨[], _, _, rfl, hends, fun _ => ?_⟩
        have hstays : (final step xs (step s x).2).slot i = .parked r ∨
            ∃ e ∈ history step xs (step s x).2, Unparks i e :=
          stays_or (P := fun s : Leases ι ρ τ => s.slot i = .parked r)
            (fun s x h => parked_step h x) hslot xs
        rcases hstays with hparked | hunparked
        · cases hparked.symm.trans hfree
        · exact hunparked

theorem used_final (h : r ∈ s.used) (xs : List (τ × Request ι ρ τ)) :
    r ∈ (final step xs s).used := by
  induction xs generalizing s with
  | nil => exact h
  | cons x xs ih => exact ih (used_step h x)

/-- **Between two leases of one resource the first one ends.** Two leases are never of one owner;
and where they are of one resource, the first one has been ended in between, and the resource
unparked if that left it parked. -/
theorem acquired_apart {j : ι} {r' : ρ} {t t' e e' : τ} {pre mid post : List (Entry ι ρ τ)}
    (h : history step xs s = pre ++ ((t, .acquire i r e), true) ::
      (mid ++ ((t', .acquire j r' e'), true) :: post)) :
    r ≠ r' ∧ (i = j → ∃ mid₁ x mid₂, mid = mid₁ ++ x :: mid₂ ∧ Ends i r x ∧
      (Parks x → ∃ y ∈ mid₂, Unparks i y)) := by
  obtain ⟨xs₁, xs₂, -, -, hfirst, hrest⟩ := history_cut h
  obtain ⟨xs₃, xs₄, -, hmid, hsecond, -⟩ := history_cut hrest
  have hafter : step (final step xs₁ s) (t, .acquire i r e) =
      (true, granted (.acquire i r e) (final step xs₁ s)) := by
    rcases step_cases (final step xs₁ s) (t, .acquire i r e) with ⟨-, hstep⟩ | ⟨-, hstep⟩
    · exact hstep
    · rw [hstep] at hfirst
      cases hfirst
  rw [hafter] at hmid hsecond
  have hgrants : grants t' (.acquire j r' e')
      (final step xs₃ (granted (.acquire i r e) (final step xs₁ s))) = true := by
    rcases step_cases (final step xs₃ (granted (.acquire i r e) (final step xs₁ s)))
      (t', .acquire j r' e') with ⟨hgrants, -⟩ | ⟨-, hstep⟩
    · exact hgrants
    · rw [hstep] at hsecond
      cases hsecond
  obtain ⟨hfree, hnew⟩ := grants_acquire_iff.1 hgrants
  refine ⟨?_, ?_⟩
  · rintro rfl
    exact hnew (used_final (mem_used_granted.2 (Or.inr (Finset.mem_singleton_self r))) xs₃)
  · rintro rfl
    have hholds : (granted (.acquire i r e) (final step xs₁ s)).Holds i r :=
      ⟨e, slot_granted_self (q := .acquire i r e)⟩
    obtain ⟨mid₁, x, mid₂, heq, hends⟩ := freed_of_holds hholds hfree
    exact ⟨mid₁, x, mid₂, hmid.symm.trans heq, hends⟩

/-- A lease that is held was acquired, and has not been ended since. -/
theorem acquired_of_holds (h : (final step xs (initial : Leases ι ρ τ)).Holds i r) :
    ∃ pre t e post, history step xs initial = pre ++ ((t, .acquire i r e), true) :: post ∧
      ∀ y ∈ post, ¬ Ends i r y := by
  induction xs using List.reverseRecOn with
  | nil =>
      obtain ⟨e, he⟩ := h
      cases he
  | append_singleton xs x ih =>
      rw [final_append, final_cons, final_nil] at h
      rw [history_append, history_cons, history_nil]
      generalize hs : final step xs initial = s at h ih
      by_cases hbefore : s.Holds i r
      · obtain ⟨pre, t, e, post, heq, hpost⟩ := ih hbefore
        refine ⟨pre, t, e, post ++ [(x, (step s x).1)], by rw [heq]; simp, fun y hy => ?_⟩
        rcases List.mem_append.1 hy with hy | hy
        · exact hpost y hy
        · rw [List.mem_singleton.1 hy]
          rcases holds_step hbefore x with ⟨-, hends⟩ | ⟨-, ⟨hslot, -⟩ | hslot⟩
          · exact hends
          · obtain ⟨e', he'⟩ := h
            cases he'.symm.trans hslot
          · obtain ⟨e', he'⟩ := h
            cases he'.symm.trans hslot
      · rcases acquired_step h with hholds | ⟨htrue, e, hx⟩
        · exact absurd hholds hbefore
        · obtain ⟨t, q⟩ := x
          obtain rfl : q = .acquire i r e := hx
          exact ⟨history step xs initial, t, e, [], by rw [htrue], fun y hy => by cases hy⟩

end Histories

end Leases

end Leasing
