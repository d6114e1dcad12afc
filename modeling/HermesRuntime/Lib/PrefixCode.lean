import Mathlib.Data.List.TakeWhile
import Mathlib.Logic.Basic

/-!
# Writing that can be read back

A way of writing values is *unambiguous* before certain continuations when a written value and
what follows it can be told apart: no value is written as the beginning of another one there.
Texts that are put together from such parts are written injectively.

* `Unambiguous.append`, `Unambiguous.cons` — one part after the other.
* `Unambiguous.flatMap` — a list of parts, up to a symbol that begins none of them.
* `Unambiguous.separated` — a list of parts between separators.
* `unambiguous_span` — parts made of symbols that cannot follow them.
-/

namespace Codes

variable {α β σ : Type}

/-- Before the continuations `P` admits, a value and what follows it can be told apart. -/
def Unambiguous (write : α → List σ) (P : List σ → Prop) : Prop :=
  ∀ a b x y, P x → P y → write a ++ x = write b ++ y → a = b ∧ x = y

variable {write : α → List σ} {P Q : List σ → Prop}

/-- What some reader reads back is unambiguous. -/
theorem unambiguous_of_read {read : List σ → Option (α × List σ)}
    (h : ∀ a x, P x → read (write a ++ x) = some (a, x)) : Unambiguous write P := by
  intro a b x y hx hy heq
  have hread : some (a, x) = some (b, y) := by
    rw [← h a x hx, ← h b y hy, heq]
  cases hread
  exact ⟨rfl, rfl⟩

/-- Values are written injectively. -/
theorem Unambiguous.injective (h : Unambiguous write P) (hnil : P []) :
    Function.Injective write := by
  intro a b heq
  exact (h a b [] [] hnil hnil (by rw [heq])).1

/-- One part after the other. -/
theorem Unambiguous.append {write' : β → List σ} (h : Unambiguous write P)
    (h' : Unambiguous write' Q) (hnext : ∀ b x, Q x → P (write' b ++ x)) :
    Unambiguous (fun p : α × β => write p.1 ++ write' p.2) Q := by
  intro p q x y hx hy heq
  rw [List.append_assoc, List.append_assoc] at heq
  obtain ⟨hfst, hrest⟩ := h _ _ _ _ (hnext _ _ hx) (hnext _ _ hy) heq
  obtain ⟨hsnd, hxy⟩ := h' _ _ _ _ hx hy hrest
  exact ⟨Prod.ext hfst hsnd, hxy⟩

/-- A symbol in front of every value. -/
theorem Unambiguous.cons (h : Unambiguous write P) (c : σ) :
    Unambiguous (fun a => c :: write a) P :=
  fun a b x y hx hy heq => h a b x y hx hy (List.cons.inj heq).2

/-- A list of values, up to a symbol none of them begins with. -/
theorem Unambiguous.flatMap {stop : σ} (h : Unambiguous write P)
    (hstop : ∀ a x y, write a ++ x ≠ stop :: y) (hend : ∀ x, P (stop :: x))
    (hnext : ∀ a x, P (write a ++ x)) :
    Unambiguous (fun as : List α => as.flatMap write ++ [stop]) fun _ => True := by
  intro as bs x y _ _ heq
  rw [List.append_assoc, List.append_assoc] at heq
  -- wherever a list ends, the stop or the next value follows
  have hfollow : ∀ (cs : List α) (z : List σ), P (cs.flatMap write ++ ([stop] ++ z)) := by
    intro cs z
    cases cs with
    | nil => exact hend z
    | cons c cs =>
        rw [List.flatMap_cons, List.append_assoc]
        exact hnext c _
  induction as generalizing bs with
  | nil =>
      cases bs with
      | nil => exact ⟨rfl, (List.cons.inj heq).2⟩
      | cons b bs =>
          rw [List.flatMap_cons, List.append_assoc] at heq
          exact absurd heq.symm (hstop b _ _)
  | cons a as ih =>
      cases bs with
      | nil =>
          rw [List.flatMap_cons, List.append_assoc] at heq
          exact absurd heq (hstop a _ _)
      | cons b bs =>
          rw [List.flatMap_cons, List.flatMap_cons, List.append_assoc, List.append_assoc] at heq
          obtain ⟨rfl, hrest⟩ := h a b _ _ (hfollow as x) (hfollow bs y) heq
          obtain ⟨rfl, hxy⟩ := ih bs hrest
          exact ⟨rfl, hxy⟩

/-- A list of values with a separator between them, up to a stop. -/
def separated (write : α → List σ) (sep stop : σ) : List α → List σ
  | [] => [stop]
  | a :: as => write a ++ (as.flatMap (fun b => sep :: write b) ++ [stop])

/-- **Separated values**: neither the separator nor the stop begins a value, and before either a
value can be told from it. -/
theorem Unambiguous.separated {sep stop : σ} (h : Unambiguous write P)
    (hstop : ∀ a x y, write a ++ x ≠ stop :: y) (hne : sep ≠ stop) (hsep : ∀ x, P (sep :: x))
    (hend : ∀ x, P (stop :: x)) :
    Unambiguous (separated write sep stop) fun _ => True := by
  have htail : Unambiguous (fun as : List α => as.flatMap (fun b => sep :: write b) ++ [stop])
      fun _ => True :=
    (h.cons sep).flatMap (fun a x y heq => hne (List.cons.inj heq).1) hend fun a x => hsep _
  have hfollow : ∀ (as : List α) (x : List σ),
      P (as.flatMap (fun b => sep :: write b) ++ [stop] ++ x) := by
    intro as x
    cases as with
    | nil => exact hend x
    | cons a as => exact hsep _
  intro as bs x y hx hy heq
  cases as with
  | nil =>
      cases bs with
      | nil => exact ⟨rfl, (List.cons.inj heq).2⟩
      | cons b bs =>
          rw [Codes.separated, Codes.separated, List.append_assoc] at heq
          exact absurd heq.symm (hstop b _ _)
  | cons a as =>
      cases bs with
      | nil =>
          rw [Codes.separated, Codes.separated, List.append_assoc] at heq
          exact absurd heq (hstop a _ _)
      | cons b bs =>
          rw [Codes.separated, Codes.separated, List.append_assoc (write a),
            List.append_assoc (write b)] at heq
          obtain ⟨rfl, hrest⟩ := h a b _ _ (hfollow as x) (hfollow bs y) heq
          obtain ⟨rfl, hxy⟩ := htail as bs x y trivial trivial hrest
          exact ⟨rfl, hxy⟩

/-- Values written with symbols of one kind, before anything that begins with none of the kind. -/
theorem unambiguous_span {p : σ → Bool} (hinj : Function.Injective write)
    (hp : ∀ a, ∀ c ∈ write a, p c = true) :
    Unambiguous write fun x => ∀ c ∈ x.head?, p c = false := by
  have htake : ∀ {a : α} {x : List σ}, (∀ c ∈ x.head?, p c = false) →
      (write a ++ x).takeWhile p = write a := by
    intro a x hx
    rw [List.takeWhile_append_of_pos (hp a)]
    cases x with
    | nil => exact List.append_nil _
    | cons c x =>
        have hc : p c = false := hx c rfl
        rw [List.takeWhile_cons_of_neg (by rw [hc]; exact Bool.false_ne_true), List.append_nil]
  intro a b x y hx hy heq
  have hab : write a = write b := (htake hx).symm.trans ((congrArg _ heq).trans (htake hy))
  refine ⟨hinj hab, ?_⟩
  rw [hab] at heq
  exact List.append_cancel_left heq

end Codes
