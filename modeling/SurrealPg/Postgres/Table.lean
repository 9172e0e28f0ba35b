import SurrealPg.Semantics.FiniteMap

/-!
# Tables with a primary key

A table is the list of its rows in strictly increasing key order, the order in which an
`ORDER BY key` query returns them. The order is a field of the structure, so a table with two
rows of one key, or with rows out of order, cannot be built; two tables with the same contents
are therefore equal, and `Table.ext_get?` is how all equations between tables are proved.
-/

namespace Postgres

/-- Rows with unique keys, in increasing key order. -/
structure Table (κ ν : Type) [LinearOrder κ] where
  /-- The rows, in the order an ascending scan returns them. -/
  rows : List (κ × ν)
  /-- The primary key: strictly increasing along the list. -/
  sorted : rows.Pairwise fun a b ↦ a.1 < b.1

namespace Table

variable {κ ν : Type} [LinearOrder κ]

instance : EmptyCollection (Table κ ν) := ⟨⟨[], List.Pairwise.nil⟩⟩

/-- The value stored under `k`. -/
def get? (t : Table κ ν) (k : κ) : Option ν := t.rows.lookup k

/-! ## Rows and look-ups -/

theorem lookup_cons_eq_ite (k : κ) (r : κ × ν) (rows : List (κ × ν)) :
    (r :: rows).lookup k = if k = r.1 then some r.2 else rows.lookup k := by
  rw [List.lookup_cons]
  by_cases h : k = r.1
  · rw [if_pos h, beq_iff_eq.mpr h]
  · rw [if_neg h, beq_false_of_ne h]

private theorem lookup_eq_some_iff_mem {rows : List (κ × ν)}
    (h : rows.Pairwise fun a b ↦ a.1 < b.1) {k : κ} {v : ν} :
    rows.lookup k = some v ↔ (k, v) ∈ rows := by
  induction rows with
  | nil => simp
  | cons r rows ih =>
    rw [List.pairwise_cons] at h
    rw [lookup_cons_eq_ite, List.mem_cons, Prod.ext_iff]
    by_cases hk : k = r.1
    · have hnot : (k, v) ∉ rows := fun hmem ↦ absurd (h.1 _ hmem) (by rw [hk]; exact lt_irrefl _)
      simp only [hk, if_true, true_and, Option.some.injEq]
      rw [← hk, or_iff_left hnot, eq_comm]
    · rw [if_neg hk, ih h.2]
      simp [hk]

theorem get?_eq_some_iff {t : Table κ ν} {k : κ} {v : ν} :
    t.get? k = some v ↔ (k, v) ∈ t.rows :=
  lookup_eq_some_iff_mem t.sorted

theorem get?_empty (k : κ) : (∅ : Table κ ν).get? k = none := rfl

/-- **Extensionality.** A table is determined by what it stores. -/
theorem ext_get? {t t' : Table κ ν} (h : ∀ k, t.get? k = t'.get? k) : t = t' := by
  have hrows : t.rows = t'.rows := by
    have : Std.Irrefl fun a b : κ × ν ↦ a.1 < b.1 := ⟨fun a ↦ lt_irrefl _⟩
    have : Std.Antisymm fun a b : κ × ν ↦ a.1 < b.1 := ⟨fun a b h h' ↦ absurd h h'.not_gt⟩
    refine t.sorted.eq_of_mem_iff t'.sorted fun r ↦ ?_
    rw [← get?_eq_some_iff (k := r.1), ← get?_eq_some_iff (k := r.1), h]
  obtain ⟨rows, _⟩ := t
  obtain ⟨rows', _⟩ := t'
  obtain rfl : rows = rows' := hrows
  rfl

/-! ## Keeping the rows of some keys -/

/-- The rows whose key satisfies `p`. -/
def filter (t : Table κ ν) (p : κ → Bool) : Table κ ν where
  rows := t.rows.filter fun r ↦ p r.1
  sorted := t.sorted.filter _

theorem get?_filter (t : Table κ ν) (p : κ → Bool) (k : κ) :
    (t.filter p).get? k = if p k then t.get? k else none := by
  refine Option.ext fun v ↦ ?_
  rw [get?_eq_some_iff, filter, List.mem_filter, ← get?_eq_some_iff]
  by_cases hp : p k <;> simp [hp]

/-- Without the row of `k`. -/
def erase (t : Table κ ν) (k : κ) : Table κ ν := t.filter fun k' ↦ decide (k' ≠ k)

theorem get?_erase (t : Table κ ν) (k k' : κ) :
    (t.erase k).get? k' = if k' = k then none else t.get? k' := by
  rw [erase, get?_filter]
  by_cases h : k' = k <;> simp [h]

@[simp] theorem get?_erase_self (t : Table κ ν) (k : κ) : (t.erase k).get? k = none := by
  rw [get?_erase, if_pos rfl]

theorem get?_erase_of_ne (t : Table κ ν) {k k' : κ} (h : k' ≠ k) :
    (t.erase k).get? k' = t.get? k' := by
  rw [get?_erase, if_neg h]

/-! ## Writing a row -/

/-- Put the row of `k` in its place, replacing the old one. -/
def insertRow (k : κ) (v : ν) : List (κ × ν) → List (κ × ν)
  | [] => [(k, v)]
  | r :: rows =>
    if k < r.1 then (k, v) :: r :: rows
    else if k = r.1 then (k, v) :: rows
    else r :: insertRow k v rows

theorem fst_mem_insertRow {k : κ} {v : ν} {rows : List (κ × ν)} {r : κ × ν}
    (h : r ∈ insertRow k v rows) : r.1 = k ∨ r ∈ rows := by
  induction rows with
  | nil => rw [insertRow, List.mem_singleton] at h; exact Or.inl (by rw [h])
  | cons a rows ih =>
    rw [insertRow] at h
    split_ifs at h with hlt heq
    · rcases List.mem_cons.mp h with rfl | h
      · exact Or.inl rfl
      · exact Or.inr h
    · rcases List.mem_cons.mp h with rfl | h
      · exact Or.inl rfl
      · exact Or.inr (List.mem_cons_of_mem _ h)
    · rcases List.mem_cons.mp h with rfl | h
      · exact Or.inr List.mem_cons_self
      · exact (ih h).imp_right (List.mem_cons_of_mem _)

theorem sorted_insertRow (k : κ) (v : ν) {rows : List (κ × ν)}
    (h : rows.Pairwise fun a b ↦ a.1 < b.1) :
    (insertRow k v rows).Pairwise fun a b ↦ a.1 < b.1 := by
  induction rows with
  | nil => exact List.pairwise_singleton _ _
  | cons a rows ih =>
    have hcons := List.pairwise_cons.mp h
    rw [insertRow]
    split_ifs with hlt heq
    · refine List.pairwise_cons.mpr ⟨fun b hb ↦ ?_, h⟩
      rcases List.mem_cons.mp hb with rfl | hb
      · exact hlt
      · exact hlt.trans (hcons.1 b hb)
    · exact List.pairwise_cons.mpr ⟨fun b hb ↦ by rw [heq]; exact hcons.1 b hb, hcons.2⟩
    · refine List.pairwise_cons.mpr ⟨fun b hb ↦ ?_, ih hcons.2⟩
      rcases fst_mem_insertRow hb with hb | hb
      · rw [hb]
        exact lt_of_le_of_ne (not_lt.mp hlt) (Ne.symm heq)
      · exact hcons.1 b hb

/-- Insert or replace the row of `k`. -/
def upsert (t : Table κ ν) (k : κ) (v : ν) : Table κ ν where
  rows := insertRow k v t.rows
  sorted := sorted_insertRow k v t.sorted

theorem lookup_insertRow (k : κ) (v : ν) (rows : List (κ × ν)) (k' : κ) :
    (insertRow k v rows).lookup k' = if k' = k then some v else rows.lookup k' := by
  induction rows with
  | nil => rw [insertRow, lookup_cons_eq_ite]
  | cons a rows ih =>
    rw [insertRow]
    by_cases hlt : k < a.1
    · rw [if_pos hlt, lookup_cons_eq_ite]
    by_cases heq : k = a.1
    · rw [if_neg hlt, if_pos heq, lookup_cons_eq_ite, lookup_cons_eq_ite, ← heq]
      split_ifs <;> rfl
    · rw [if_neg hlt, if_neg heq, lookup_cons_eq_ite, lookup_cons_eq_ite, ih]
      by_cases hk : k' = k
      · rw [if_pos hk, if_pos hk, hk, if_neg heq]
      · rw [if_neg hk, if_neg hk]

theorem get?_upsert (t : Table κ ν) (k : κ) (v : ν) (k' : κ) :
    (t.upsert k v).get? k' = if k' = k then some v else t.get? k' :=
  lookup_insertRow k v t.rows k'

@[simp] theorem get?_upsert_self (t : Table κ ν) (k : κ) (v : ν) :
    (t.upsert k v).get? k = some v := by
  rw [get?_upsert, if_pos rfl]

theorem get?_upsert_of_ne (t : Table κ ν) {k k' : κ} (v : ν) (h : k' ≠ k) :
    (t.upsert k v).get? k' = t.get? k' := by
  rw [get?_upsert, if_neg h]

/-! ## Writing many rows

One statement may write many rows. What it stores under a key is the last value listed for that
key, so the result depends on the list only through `lastValue`. -/

/-- Upsert the pairs of a list, first to last. -/
def upsertAll (t : Table κ ν) (pairs : List (κ × ν)) : Table κ ν :=
  pairs.foldl (fun t p ↦ t.upsert p.1 p.2) t

/-- The last value a list of pairs gives for `k`. -/
def lastValue (pairs : List (κ × ν)) (k : κ) : Option ν := pairs.reverse.lookup k

@[simp] theorem upsertAll_nil (t : Table κ ν) : t.upsertAll [] = t := rfl

theorem upsertAll_cons (t : Table κ ν) (p : κ × ν) (pairs : List (κ × ν)) :
    t.upsertAll (p :: pairs) = (t.upsert p.1 p.2).upsertAll pairs := rfl

theorem upsertAll_append (t : Table κ ν) (l m : List (κ × ν)) :
    t.upsertAll (l ++ m) = (t.upsertAll l).upsertAll m := List.foldl_append

theorem get?_upsertAll (t : Table κ ν) (pairs : List (κ × ν)) (k : κ) :
    (t.upsertAll pairs).get? k = (lastValue pairs k).or (t.get? k) := by
  induction pairs generalizing t with
  | nil => simp [lastValue]
  | cons p pairs ih =>
    rw [upsertAll_cons, ih, get?_upsert, lastValue, lastValue, List.reverse_cons,
      List.lookup_append, lookup_cons_eq_ite, Option.or_assoc]
    by_cases h : k = p.1 <;> simp [h]

theorem upsertAll_congr (t : Table κ ν) {l m : List (κ × ν)}
    (h : ∀ k, lastValue l k = lastValue m k) : t.upsertAll l = t.upsertAll m :=
  ext_get? fun k ↦ by rw [get?_upsertAll, get?_upsertAll, h]

/-! ## The map a table stands for

Every operation on tables is the operation of the same name on maps, and the rows of a table are
the listing of its map. -/

open Semantics

/-- What a table stores. -/
def toMap (t : Table κ ν) : FiniteMap κ ν where
  get := t.get?
  finite := by
    refine (t.rows.map Prod.fst).finite_toSet.subset fun k hk ↦ ?_
    obtain ⟨v, hv⟩ := Option.isSome_iff_exists.mp hk
    exact List.mem_map.mpr ⟨(k, v), get?_eq_some_iff.mp hv, rfl⟩

@[simp] theorem get_toMap (t : Table κ ν) (k : κ) : t.toMap.get k = t.get? k := rfl

theorem toMap_upsert (t : Table κ ν) (k : κ) (v : ν) :
    (t.upsert k v).toMap = t.toMap.insert k v := by
  refine FiniteMap.ext (funext fun k' ↦ ?_)
  rw [get_toMap, get?_upsert, FiniteMap.get_insert, get_toMap]

theorem toMap_filter (t : Table κ ν) {p : κ → Bool} {P : κ → Prop}
    (h : ∀ k, p k = true ↔ P k) : (t.filter p).toMap = t.toMap.restrict P := by
  obtain rfl : (fun k ↦ p k = true) = P := funext fun k ↦ propext (h k)
  refine FiniteMap.ext (funext fun k ↦ ?_)
  rw [get_toMap, get?_filter, FiniteMap.get_restrict, get_toMap]

theorem toMap_erase (t : Table κ ν) (k : κ) : (t.erase k).toMap = t.toMap.erase k :=
  toMap_filter t fun _ ↦ decide_eq_true_iff

theorem rows_eq_entries (t : Table κ ν) : t.rows = t.toMap.entries :=
  FiniteMap.eq_entries t.sorted fun _ _ ↦ get?_eq_some_iff.symm

end Table

end Postgres
