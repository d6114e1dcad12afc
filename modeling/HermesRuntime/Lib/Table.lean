import Mathlib.Data.List.Flatten
import Mathlib.Data.List.Nodup

/-!
# Tables with unique indexes

A table is its rows in insertion order. Each row occupies a list of *unique keys*, one for
every unique index that covers it (a partial index simply contributes no key to the rows
outside it), and no key is occupied twice. The constraint is a field of the table, so a table
that violates an index cannot be built; the statements that could violate one (`insert?`,
`update?`) are partial instead.

* `insert?`, `update?`, `delete` — the three writing statements, `update?` and `delete` with a
  row filter.
* `eq_of_key` — two rows that share a key are the same row.
* `update?_eq_some` — an update that gives no row a new key always goes through.
* `perm_of_filter_eq` — tables that agree on the rows of every kind have the same rows.
-/

namespace Relational

/-- Rows whose unique keys never repeat. -/
@[ext] structure Table (α κ : Type) (keys : α → List κ) where
  rows : List α
  unique : (rows.flatMap keys).Nodup

namespace Table

variable {α κ : Type} {keys : α → List κ}

/-- The table without rows. -/
def empty : Table α κ keys := ⟨[], List.nodup_nil⟩

@[simp] theorem rows_empty : (empty : Table α κ keys).rows = [] := rfl

/-- Two rows that share a unique key are the same row. -/
theorem eq_of_key (t : Table α κ keys) {a b : α} {k : κ} (ha : a ∈ t.rows) (hb : b ∈ t.rows)
    (hka : k ∈ keys a) (hkb : k ∈ keys b) : a = b := by
  have hpw := (List.nodup_flatMap.1 t.unique).2
  by_contra hne
  rcases List.pairwise_iff_getElem.1 hpw with hpw
  obtain ⟨i, hi, rfl⟩ := List.getElem_of_mem ha
  obtain ⟨j, hj, rfl⟩ := List.getElem_of_mem hb
  rcases Nat.lt_trichotomy i j with h | h | h
  · exact hpw i j hi hj h hka hkb
  · subst h
    exact hne rfl
  · exact hpw j i hj hi h hkb hka

/-! ## Statements -/

/-- `delete … where p`. -/
def delete (t : Table α κ keys) (p : α → Bool) : Table α κ keys where
  rows := t.rows.filter fun a => !p a
  unique := t.unique.sublist (List.filter_sublist.flatMap keys)

@[simp] theorem rows_delete (t : Table α κ keys) (p : α → Bool) :
    (t.delete p).rows = t.rows.filter fun a => !p a := rfl

section Writing

variable [DecidableEq κ]

/-- `insert`: refused when the new row would repeat a key. -/
def insert? (t : Table α κ keys) (a : α) : Option (Table α κ keys) :=
  if h : ((t.rows ++ [a]).flatMap keys).Nodup then some ⟨t.rows ++ [a], h⟩ else none

/-- `update … where p`: refused when the changed rows would repeat a key. -/
def update? (t : Table α κ keys) (p : α → Bool) (f : α → α) : Option (Table α κ keys) :=
  if h : ((t.rows.map fun a => if p a then f a else a).flatMap keys).Nodup then some ⟨_, h⟩
  else none

theorem rows_of_insert? {t t' : Table α κ keys} {a : α} (h : t.insert? a = some t') :
    t'.rows = t.rows ++ [a] := by
  unfold insert? at h
  split at h
  · cases h
    rfl
  · cases h

/-- An insert goes through exactly when no present row has a key of the new one. -/
theorem insert?_isSome_iff {t : Table α κ keys} {a : α} (ha : (keys a).Nodup) :
    (t.insert? a).isSome ↔ ∀ b ∈ t.rows, ∀ k ∈ keys b, k ∉ keys a := by
  have hnodup : ((t.rows ++ [a]).flatMap keys).Nodup ↔ ∀ b ∈ t.rows, ∀ k ∈ keys b, k ∉ keys a := by
    rw [List.flatMap_append, List.flatMap_singleton, List.nodup_append]
    constructor
    · rintro ⟨-, -, h⟩ b hb k hkb hka
      exact h k (List.mem_flatMap.2 ⟨b, hb, hkb⟩) k hka rfl
    · intro hfree
      refine ⟨t.unique, ha, fun k hk k' hk' heq => ?_⟩
      subst heq
      obtain ⟨b, hb, hkb⟩ := List.mem_flatMap.1 hk
      exact hfree b hb k hkb hk'
  rw [← hnodup]
  unfold insert?
  split
  · rename_i h
    exact iff_of_true rfl h
  · rename_i h
    exact iff_of_false (by simp) h

theorem rows_of_update? {t t' : Table α κ keys} {p : α → Bool} {f : α → α}
    (h : t.update? p f = some t') : t'.rows = t.rows.map fun a => if p a then f a else a := by
  unfold update? at h
  split at h
  · cases h
    rfl
  · cases h

/-- An update whose rows keep or lose keys, never gain one, cannot violate an index. -/
theorem update?_eq_some {t : Table α κ keys} {p : α → Bool} {f : α → α}
    (hf : ∀ a ∈ t.rows, p a = true → (keys (f a)).Sublist (keys a)) :
    ∃ t', t.update? p f = some t' := by
  have hsub : ((t.rows.map fun a => if p a then f a else a).flatMap keys).Sublist
      (t.rows.flatMap keys) := by
    generalize t.rows = rows at hf
    induction rows with
    | nil => exact List.Sublist.refl _
    | cons a rows ih =>
        rw [List.map_cons, List.flatMap_cons, List.flatMap_cons]
        refine List.Sublist.append ?_ (ih fun b hb => hf b (List.mem_cons_of_mem _ hb))
        split
        · rename_i hp
          exact hf a (by simp) hp
        · exact List.Sublist.refl _
  exact ⟨⟨_, t.unique.sublist hsub⟩, dif_pos (t.unique.sublist hsub)⟩

end Writing

end Table

/-! ## Rows of some kind -/

section Rows

variable {α β : Type} {rows : List α} {p : α → Bool} {g : α → α}

/-- Writing to rows that are of the kind neither before nor after does not show among those. -/
theorem filter_map_other {q : α → Prop} [DecidablePred q]
    (h : ∀ a ∈ rows, q a → p a = false ∧ p (g a) = false) :
    (rows.map fun a => if q a then g a else a).filter p = rows.filter p := by
  induction rows with
  | nil => rfl
  | cons a rows ih =>
      have hrest := ih fun b hb => h b (List.mem_cons_of_mem _ hb)
      by_cases hq : q a
      · obtain ⟨hbefore, hafter⟩ := h a List.mem_cons_self hq
        rw [List.map_cons, if_pos hq, List.filter_cons_of_neg (by simp [hafter]),
          List.filter_cons_of_neg (by simp [hbefore]), hrest]
      · rw [List.map_cons, if_neg hq, List.filter_cons, List.filter_cons, hrest]

/-- Rows that stay of their kind can be picked before they are written to. -/
theorem filter_map_own (h : ∀ a, p (g a) = p a) :
    (rows.map g).filter p = (rows.filter p).map g := by
  have hcomp : p ∘ g = p := funext h
  rw [List.filter_map, hcomp]

theorem filter_append_own {more : List α} (h : ∀ a ∈ more, p a = true) :
    (rows ++ more).filter p = rows.filter p ++ more := by
  rw [List.filter_append, List.filter_eq_self.2 h]

/-- Two lists with the same rows of every kind have the same rows. -/
theorem perm_of_filter_eq [DecidableEq α] [DecidableEq β] (kind : α → β) {rows' : List α}
    (h : ∀ k, (rows.filter fun a => kind a = k) = rows'.filter fun a => kind a = k) :
    rows.Perm rows' := by
  refine List.perm_iff_count.2 fun a => ?_
  have hcount : ∀ l : List α, (l.filter fun b => kind b = kind a).count a = l.count a :=
    fun l => List.count_filter (by simp)
  rw [← hcount rows, h, hcount]

end Rows

end Relational
