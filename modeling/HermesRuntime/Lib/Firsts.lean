import Mathlib.Data.List.Nodup

/-!
# The first element of each key

Deduplication of a list that keeps, in order, the first element of every key.

* `firsts_eq_self_iff` — nothing is dropped exactly when no key repeats.
* `filter_firsts` — a selection by key can be made before or after.
* `firsts_eq_firstsBy` — the first of each class, where the keys say what is in one class.
-/

namespace Lists

variable {α κ : Type} [DecidableEq κ]

/-- The elements whose key is neither in `seen` nor that of an earlier element. -/
def firsts (key : α → κ) (seen : List κ) : List α → List α
  | [] => []
  | x :: xs =>
      if key x ∈ seen then firsts key seen xs else x :: firsts key (key x :: seen) xs

variable {key : α → κ}

theorem firsts_cons_of_mem {seen : List κ} {x : α} (h : key x ∈ seen) (xs : List α) :
    firsts key seen (x :: xs) = firsts key seen xs := if_pos h

theorem firsts_cons_of_not_mem {seen : List κ} {x : α} (h : key x ∉ seen) (xs : List α) :
    firsts key seen (x :: xs) = x :: firsts key (key x :: seen) xs := if_neg h

theorem firsts_sublist (key : α → κ) (seen : List κ) (xs : List α) :
    (firsts key seen xs).Sublist xs := by
  induction xs generalizing seen with
  | nil => exact .refl _
  | cons x xs ih =>
      unfold firsts
      split
      · exact (ih _).trans (List.sublist_cons_self _ _)
      · exact (ih _).cons_cons x

/-- Nothing is dropped exactly when no key is there twice. -/
theorem firsts_eq_self_iff {seen : List κ} {xs : List α} :
    firsts key seen xs = xs ↔ (xs.map key).Nodup ∧ ∀ x ∈ xs, key x ∉ seen := by
  induction xs generalizing seen with
  | nil => simp [firsts]
  | cons x xs ih =>
      rw [List.map_cons, List.nodup_cons, List.forall_mem_cons]
      by_cases hx : key x ∈ seen
      · rw [firsts_cons_of_mem hx]
        constructor
        · intro heq
          have hlen := (firsts_sublist key seen xs).length_le
          rw [heq, List.length_cons] at hlen
          omega
        · intro h
          exact absurd hx h.2.1
      · rw [firsts_cons_of_not_mem hx, List.cons_inj_right, ih]
        simp only [List.mem_cons, not_or, List.mem_map, not_exists, not_and]
        constructor
        · intro ⟨hnodup, hseen⟩
          exact ⟨⟨fun y hy => (hseen y hy).1, hnodup⟩, hx, fun y hy => (hseen y hy).2⟩
        · intro ⟨⟨hfresh, hnodup⟩, _, hseen⟩
          exact ⟨hnodup, fun y hy => ⟨hfresh y hy, hseen y hy⟩⟩

/-- As many elements are left exactly when nothing is dropped. -/
theorem map_firsts_eq_iff {β : Type} {f : α → β} {seen : List κ} {xs : List α} :
    (firsts key seen xs).map f = xs.map f ↔ (xs.map key).Nodup ∧ ∀ x ∈ xs, key x ∉ seen := by
  rw [← firsts_eq_self_iff]
  constructor
  · intro h
    refine (firsts_sublist key seen xs).eq_of_length ?_
    have hlen := congrArg List.length h
    simpa using hlen
  · intro h
    rw [h]

/-- What is left has no key twice, and none that was there before. -/
theorem nodup_firsts (seen : List κ) (xs : List α) :
    ((firsts key seen xs).map key).Nodup ∧ ∀ x ∈ firsts key seen xs, key x ∉ seen := by
  induction xs generalizing seen with
  | nil => exact ⟨List.nodup_nil, fun x hx => absurd hx List.not_mem_nil⟩
  | cons x xs ih =>
      by_cases hx : key x ∈ seen
      · rw [firsts_cons_of_mem hx]
        exact ih seen
      · obtain ⟨hnodup, hfresh⟩ := ih (key x :: seen)
        rw [firsts_cons_of_not_mem hx, List.map_cons, List.nodup_cons, List.forall_mem_cons]
        refine ⟨⟨fun hmem => ?_, hnodup⟩, hx, fun y hy => ?_⟩
        · obtain ⟨y, hy, heq⟩ := List.mem_map.1 hmem
          exact hfresh y hy (heq ▸ List.mem_cons_self)
        · exact fun hin => hfresh y hy (List.mem_cons_of_mem _ hin)

/-- Nothing is dropped a second time, from all that is left or from some of it. -/
theorem firsts_of_sublist {seen : List κ} {xs ys : List α} (h : ys.Sublist (firsts key seen xs)) :
    firsts key [] ys = ys :=
  firsts_eq_self_iff.2 ⟨(nodup_firsts seen xs).1.sublist (h.map key), fun _ _ => List.not_mem_nil⟩

theorem firsts_map {β : Type} {f : β → α} {seen : List κ} (xs : List β) :
    firsts key seen (xs.map f) = (firsts (fun x => key (f x)) seen xs).map f := by
  induction xs generalizing seen with
  | nil => rfl
  | cons x xs ih =>
      rw [List.map_cons]
      by_cases hx : key (f x) ∈ seen
      · have hcons : firsts (fun x => key (f x)) seen (x :: xs) =
            firsts (fun x => key (f x)) seen xs := if_pos hx
        rw [firsts_cons_of_mem hx, ih, hcons]
      · have hcons : firsts (fun x => key (f x)) seen (x :: xs) =
            x :: firsts (fun x => key (f x)) (key (f x) :: seen) xs := if_neg hx
        rw [firsts_cons_of_not_mem hx, ih, hcons, List.map_cons]

/-- A selection by key can be made before: keys it does not select may differ in `seen`. -/
theorem filter_firsts {p : α → Bool} {q : κ → Prop} (hp : ∀ x, p x = true ↔ q (key x))
    {seen seen' : List κ} (hseen : ∀ k, q k → (k ∈ seen ↔ k ∈ seen')) (xs : List α) :
    (firsts key seen xs).filter p = firsts key seen' (xs.filter p) := by
  induction xs generalizing seen seen' with
  | nil => rfl
  | cons x xs ih =>
      by_cases hx : p x = true
      · have hq := (hp x).1 hx
        rw [List.filter_cons_of_pos hx]
        by_cases hin : key x ∈ seen
        · rw [firsts_cons_of_mem hin, firsts_cons_of_mem ((hseen _ hq).1 hin)]
          exact ih hseen
        · have hin' : key x ∉ seen' := fun h => hin ((hseen _ hq).2 h)
          rw [firsts_cons_of_not_mem hin, firsts_cons_of_not_mem hin', List.filter_cons_of_pos hx]
          refine congrArg _ (ih fun k hk => ?_)
          rw [List.mem_cons, List.mem_cons, hseen k hk]
      · rw [List.filter_cons_of_neg hx]
        by_cases hin : key x ∈ seen
        · rw [firsts_cons_of_mem hin]
          exact ih hseen
        · rw [firsts_cons_of_not_mem hin, List.filter_cons_of_neg hx]
          refine ih fun k hk => ?_
          have hne : k ≠ key x := fun h => hx ((hp x).2 (h ▸ hk))
          rw [List.mem_cons, or_iff_right hne, hseen k hk]

section Related

variable {r : α → α → Prop} [DecidableRel r]

/-- The elements no earlier one is related to. -/
def firstsBy (r : α → α → Prop) [DecidableRel r] (earlier : List α) : List α → List α
  | [] => []
  | x :: xs =>
      if ∃ y ∈ earlier, r y x then firstsBy r (x :: earlier) xs
      else x :: firstsBy r (x :: earlier) xs

theorem firstsBy_sublist (earlier xs : List α) : (firstsBy r earlier xs).Sublist xs := by
  induction xs generalizing earlier with
  | nil => exact .refl _
  | cons x xs ih =>
      unfold firstsBy
      split
      · exact (ih _).trans (List.sublist_cons_self _ _)
      · exact (ih _).cons_cons x

/-- Keys pick the first of each class where they say what is related. -/
theorem firsts_eq_firstsBy {seen : List κ} {earlier xs : List α}
    (hr : ∀ y ∈ earlier ++ xs, ∀ x ∈ xs, r y x ↔ key y = key x)
    (hseen : ∀ k, k ∈ seen ↔ k ∈ earlier.map key) :
    firsts key seen xs = firstsBy r earlier xs := by
  induction xs generalizing seen earlier with
  | nil => rfl
  | cons x xs ih =>
      have hin : key x ∈ seen ↔ ∃ y ∈ earlier, r y x := by
        rw [hseen, List.mem_map]
        refine exists_congr fun y => and_congr_right fun hy => ?_
        exact (hr y (List.mem_append_left _ hy) x List.mem_cons_self).symm
      have hrest : ∀ y ∈ (x :: earlier) ++ xs, ∀ z ∈ xs, r y z ↔ key y = key z := by
        intro y hy z hz
        refine hr y ?_ z (List.mem_cons_of_mem _ hz)
        simp only [List.cons_append, List.mem_cons, List.mem_append] at hy ⊢
        tauto
      unfold firstsBy
      by_cases hx : key x ∈ seen
      · rw [firsts_cons_of_mem hx, if_pos (hin.1 hx)]
        refine ih hrest fun k => ?_
        rw [List.map_cons, List.mem_cons, ← hseen]
        exact ⟨Or.inr, fun h => h.elim (fun heq => heq ▸ hx) id⟩
      · rw [firsts_cons_of_not_mem hx, if_neg (mt hin.2 hx)]
        refine congrArg _ (ih hrest fun k => ?_)
        rw [List.map_cons, List.mem_cons, List.mem_cons, hseen]

end Related

end Lists
