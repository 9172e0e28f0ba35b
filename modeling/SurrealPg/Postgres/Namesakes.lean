import SurrealPg.Postgres.Catalog
import Mathlib.Data.List.Perm.Basic

/-!
# Relations of one name

A name in a statement is resolved along the search path; a catalog query that compares `relname`
finds every relation of that name, in whatever schema. The count of partitions adds up the children
of all partitioned namesakes, and a query for one row of several may return any of them, since the
order of the rows is not specified. What is asked about a name is therefore true of the relation it
resolves to as long as no namesake has anything to say.
-/

namespace Postgres

/-! ## Sums and first elements -/

/-- A sum over distinct elements is the summand of one of them if the others vanish. -/
theorem sum_map_eq_single_iff {α : Type} {l : List α} (hl : l.Nodup) {a : α} (ha : a ∈ l)
    (f : α → ℕ) : (l.map f).sum = f a ↔ ∀ x ∈ l, x ≠ a → f x = 0 := by
  obtain ⟨s, t, rfl⟩ := List.append_of_mem ha
  have hs : a ∉ s := fun h ↦ (List.nodup_append.mp hl).2.2 a h a List.mem_cons_self rfl
  have ht : a ∉ t := (List.nodup_cons.mp (List.nodup_append.mp hl).2.1).1
  rw [List.map_append, List.map_cons, List.sum_append, List.sum_cons]
  constructor
  · intro hsum x hx hne
    have hs₀ : (s.map f).sum = 0 := by omega
    have ht₀ : (t.map f).sum = 0 := by omega
    rcases List.mem_append.mp hx with hx | hx
    · exact List.sum_eq_zero_iff_forall_eq_nat.mp hs₀ _ (List.mem_map_of_mem hx)
    · rcases List.mem_cons.mp hx with rfl | hx
      · exact absurd rfl hne
      · exact List.sum_eq_zero_iff_forall_eq_nat.mp ht₀ _ (List.mem_map_of_mem hx)
  · intro hzero
    have hs₀ : (s.map f).sum = 0 := by
      apply List.sum_eq_zero_iff_forall_eq_nat.mpr
      intro n hn
      obtain ⟨x, hx, rfl⟩ := List.mem_map.mp hn
      exact hzero x (List.mem_append_left _ hx) (fun h ↦ hs (h ▸ hx))
    have ht₀ : (t.map f).sum = 0 := by
      apply List.sum_eq_zero_iff_forall_eq_nat.mpr
      intro n hn
      obtain ⟨x, hx, rfl⟩ := List.mem_map.mp hn
      exact hzero x (List.mem_append_right _ (List.mem_cons_of_mem _ hx)) (fun h ↦ ht (h ▸ hx))
    omega

theorem head?_filter_perm_iff {α β : Type} {l : List α} {p : α → Bool} {g : α → β}
    {b : Option β} :
    (∀ l' : List α, l'.Perm l → (l'.filter p).head?.map g = b) ↔
      (∀ x ∈ l, p x = true → b = some (g x)) ∧ ((∀ x ∈ l, p x = false) → b = none) := by
  constructor
  · intro h
    constructor
    · intro x hx hp
      -- some order begins with `x`
      obtain ⟨s, t, rfl⟩ := List.append_of_mem hx
      have hfirst := h (x :: (s ++ t)) List.perm_middle.symm
      rw [List.filter_cons_of_pos hp] at hfirst
      exact hfirst.symm
    · intro hnone
      have hnil : l.filter p = [] := List.filter_eq_nil_iff.mpr fun x hx ↦ by simp [hnone x hx]
      have hempty := h l (List.Perm.refl l)
      rw [hnil] at hempty
      exact hempty.symm
  · rintro ⟨hsome, hnone⟩ l' hperm
    cases hfirst : (l'.filter p).head? with
    | none =>
      refine (hnone fun x hx ↦ ?_).symm
      have hnil := List.filter_eq_nil_iff.mp (List.head?_eq_none_iff.mp hfirst) x
        (hperm.mem_iff.mpr hx)
      simpa using hnil
    | some x =>
      obtain ⟨hmem, hp⟩ := List.mem_filter.mp (List.mem_of_mem_head? hfirst)
      exact (hsome x (hperm.mem_iff.mp hmem) hp).symm

namespace Catalog

variable {V : Type} (c : Catalog V)

/-! ## What a relation has to say -/

/-- The number of partitions of a relation: none if there is no such relation, or if it is not
partitioned. -/
def childCount : Option (Relation V) → ℕ
  | none => 0
  | some r => if r.partitioned then (c.children r.id).length else 0

/-- The estimated number of rows of a relation, if there is one. -/
def estimate : Option (Relation V) → Option ℕ
  | none => none
  | some r => if 0 ≤ r.attrs.reltuples then some r.attrs.reltuples.toNat else none

/-- The rows of `pg_class`: `relname` and `reltuples`. -/
def pgClass : List (String × ℤ) := c.rels.map fun r ↦ (r.id.2, r.attrs.reltuples)

variable {c}

theorem nodup_rels (c : Catalog V) : c.rels.Nodup := List.Nodup.of_map _ c.unique

theorem mem_of_resolve_eq_some {path : List String} {name : String} {r : Relation V}
    (h : c.resolve path name = some r) : r ∈ c.rels ∧ r.id.2 = name := by
  obtain ⟨schema, -, hfind⟩ := List.exists_of_findSome?_eq_some h
  obtain ⟨hmem, hid⟩ := find_eq_some_iff.mp hfind
  exact ⟨hmem, by rw [hid]⟩

/-- **The count of a name** is that of what the name resolves to exactly if no other partitioned
relation of that name has children. -/
theorem partitionCount_eq_childCount_iff {path : List String} {name : String} :
    c.partitionCount name = c.childCount (c.resolve path name) ↔
      ∀ r ∈ c.rels, r.id.2 = name → r.partitioned = true → c.resolve path name ≠ some r →
        c.children r.id = [] := by
  have hmem : ∀ r, r ∈ c.rels.filter (fun r ↦ r.partitioned && r.id.2 == name) ↔
      r ∈ c.rels ∧ r.partitioned = true ∧ r.id.2 = name := by
    intro r
    rw [List.mem_filter, Bool.and_eq_true, beq_iff_eq]
  by_cases hsome : ∃ r, c.resolve path name = some r ∧ r.partitioned = true
  · obtain ⟨r, hr, hpart⟩ := hsome
    obtain ⟨hrels, hname⟩ := mem_of_resolve_eq_some hr
    have hsum := sum_map_eq_single_iff (c.nodup_rels.filter _)
      ((hmem r).mpr ⟨hrels, hpart, hname⟩) fun r' ↦ (c.children r'.id).length
    rw [hr, childCount, if_pos hpart, partitionCount, hsum]
    constructor
    · intro h r' hr' hname' hpart' hne
      refine List.length_eq_zero_iff.mp (h r' ((hmem r').mpr ⟨hr', hpart', hname'⟩) ?_)
      rintro rfl
      exact hne rfl
    · intro h r' hr' hne
      obtain ⟨hr', hpart', hname'⟩ := (hmem r').mp hr'
      exact List.length_eq_zero_iff.mpr
        (h r' hr' hname' hpart' fun heq ↦ hne (Option.some.inj heq).symm)
  · -- nothing is counted for the name itself, so every partitioned namesake is another
    have hzero : c.childCount (c.resolve path name) = 0 := by
      cases hr : c.resolve path name with
      | none => rfl
      | some r => exact if_neg fun hpart ↦ hsome ⟨r, hr, hpart⟩
    rw [hzero, partitionCount, List.sum_eq_zero_iff_forall_eq_nat]
    constructor
    · intro h r hr hname hpart _
      exact List.length_eq_zero_iff.mp
        (h _ (List.mem_map_of_mem ((hmem r).mpr ⟨hr, hpart, hname⟩)))
    · intro h n hn
      obtain ⟨r, hr, rfl⟩ := List.mem_map.mp hn
      obtain ⟨hr, hpart, hname⟩ := (hmem r).mp hr
      exact List.length_eq_zero_iff.mpr
        (h r hr hname hpart fun heq ↦ hsome ⟨r, heq, hpart⟩)

/-- **The estimate of a name**, read off whichever row comes first, is that of what the name
resolves to exactly if every relation of that name that has an estimate has this one. -/
theorem estimate_of_perm_iff {path : List String} {name : String} :
    (∀ rows : List (String × ℤ), rows.Perm c.pgClass →
        ((rows.filter fun r ↦ r.1 = name ∧ 0 ≤ r.2).head?.map fun r ↦ r.2.toNat) =
          estimate (c.resolve path name)) ↔
      ∀ r ∈ c.rels, r.id.2 = name → 0 ≤ r.attrs.reltuples →
        estimate (c.resolve path name) = some r.attrs.reltuples.toNat := by
  rw [head?_filter_perm_iff]
  constructor
  · rintro ⟨hsome, -⟩ r hr hname hnonneg
    exact hsome (r.id.2, r.attrs.reltuples) (List.mem_map_of_mem hr) (by simp [hname, hnonneg])
  · intro h
    constructor
    · intro row hrow hp
      obtain ⟨r, hr, rfl⟩ := List.mem_map.mp hrow
      simp only [decide_eq_true_iff] at hp
      exact h r hr hp.1 hp.2
    · intro hnone
      cases hresolve : c.resolve path name with
      | none => rfl
      | some r =>
        obtain ⟨hr, hname⟩ := mem_of_resolve_eq_some hresolve
        have hrow := hnone (r.id.2, r.attrs.reltuples) (List.mem_map_of_mem hr)
        simp only [decide_eq_false_iff_not, hname, true_and] at hrow
        exact if_neg hrow

end Catalog

end Postgres
