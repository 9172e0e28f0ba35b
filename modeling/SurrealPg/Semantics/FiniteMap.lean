import Mathlib.Data.Finset.Sort
import Mathlib.Data.Set.Finite.Basic
import Mathlib.Order.Interval.Set.Defs

/-!
# Finite maps over ordered keys

The mathematical object a key-value table stands for: a partial function defined at finitely many
keys. Writing, removing and restricting are pointwise, and say nothing about order; order comes in
only when the entries are listed. The listing is determined by its two properties, that the keys
increase along it and that it contains the entries and nothing else, so an implementation is
compared with it by proving these two of its own list (`eq_entries`).
-/

namespace Semantics

/-- A partial function defined at finitely many keys. -/
@[ext] structure FiniteMap (κ ν : Type) where
  /-- The value under a key. -/
  get : κ → Option ν
  /-- Only finitely many keys have one. -/
  finite : {k | (get k).isSome = true}.Finite

namespace FiniteMap

variable {κ ν : Type}

/-! ## Pointwise operations -/

open scoped Classical in
/-- Store `v` under `k`, whatever was there. -/
noncomputable def insert (m : FiniteMap κ ν) (k : κ) (v : ν) : FiniteMap κ ν where
  get k' := if k' = k then some v else m.get k'
  finite := by
    refine (m.finite.insert k).subset fun k' hk' ↦ ?_
    by_cases h : k' = k
    · exact Or.inl h
    · rw [Set.mem_ofPred_eq, if_neg h] at hk'
      exact Or.inr hk'

open scoped Classical in
/-- Keep the entries whose key satisfies `p`. -/
noncomputable def restrict (m : FiniteMap κ ν) (p : κ → Prop) : FiniteMap κ ν where
  get k := if p k then m.get k else none
  finite := by
    refine m.finite.subset fun k hk ↦ ?_
    rw [Set.mem_ofPred_eq] at hk ⊢
    by_cases hp : p k
    · rwa [if_pos hp] at hk
    · rw [if_neg hp] at hk
      exact absurd hk Bool.false_ne_true

/-- Remove `k`. -/
noncomputable def erase (m : FiniteMap κ ν) (k : κ) : FiniteMap κ ν := m.restrict (· ≠ k)

theorem get_insert [DecidableEq κ] (m : FiniteMap κ ν) (k : κ) (v : ν) (k' : κ) :
    (m.insert k v).get k' = if k' = k then some v else m.get k' := by
  by_cases h : k' = k
  · rw [if_pos h]
    exact if_pos h
  · rw [if_neg h]
    exact if_neg h

theorem get_restrict (m : FiniteMap κ ν) (p : κ → Prop) (k : κ) [Decidable (p k)] :
    (m.restrict p).get k = if p k then m.get k else none := by
  by_cases h : p k
  · rw [if_pos h]
    exact if_pos h
  · rw [if_neg h]
    exact if_neg h

/-! ## Listing -/

variable [LinearOrder κ] (m : FiniteMap κ ν)

/-- The entries, in increasing key order. -/
noncomputable def entries : List (κ × ν) :=
  m.finite.toFinset.sort.filterMap fun k ↦ (m.get k).map (Prod.mk k)

/-- The entries with a key in `[start, stop)`, in increasing key order. -/
noncomputable def between (start stop : κ) : List (κ × ν) :=
  (m.restrict fun k ↦ start ≤ k ∧ k < stop).entries

variable {m}

theorem mem_entries {k : κ} {v : ν} : (k, v) ∈ m.entries ↔ m.get k = some v := by
  rw [entries, List.mem_filterMap]
  constructor
  · rintro ⟨k', -, hk'⟩
    obtain ⟨v', hv', heq⟩ := Option.map_eq_some_iff.mp hk'
    obtain ⟨rfl, rfl⟩ := Prod.mk.inj heq
    exact hv'
  · intro h
    refine ⟨k, ?_, by rw [h]; rfl⟩
    rw [Finset.mem_sort, Set.Finite.mem_toFinset, Set.mem_ofPred_eq, h]
    rfl

variable (m) in
theorem pairwise_entries : m.entries.Pairwise fun a b ↦ a.1 < b.1 := by
  refine List.Pairwise.filterMap _ ?_ (Finset.sortedLT_sort _).pairwise
  intro k k' hlt r hr r' hr'
  obtain ⟨v, -, rfl⟩ := Option.map_eq_some_iff.mp hr
  obtain ⟨v', -, rfl⟩ := Option.map_eq_some_iff.mp hr'
  exact hlt

/-- **The listing is determined**: a list with increasing keys that contains exactly the entries
is the listing. -/
theorem eq_entries {l : List (κ × ν)} (hl : l.Pairwise fun a b ↦ a.1 < b.1)
    (hmem : ∀ k v, (k, v) ∈ l ↔ m.get k = some v) : l = m.entries := by
  have : Std.Irrefl fun a b : κ × ν ↦ a.1 < b.1 := ⟨fun a ↦ lt_irrefl _⟩
  have : Std.Antisymm fun a b : κ × ν ↦ a.1 < b.1 := ⟨fun a b h h' ↦ absurd h h'.not_gt⟩
  refine hl.eq_of_mem_iff m.pairwise_entries fun r ↦ ?_
  rw [hmem r.1 r.2, mem_entries]

theorem between_of_le {start stop : κ} (h : stop ≤ start) : m.between start stop = [] := by
  refine (eq_entries List.Pairwise.nil fun k v ↦ ?_).symm
  have hout : ¬(start ≤ k ∧ k < stop) := fun hk ↦ (hk.1.trans_lt hk.2).not_ge h
  rw [get_restrict, if_neg hout]
  simp only [List.not_mem_nil, reduceCtorEq]

theorem mem_between {start stop k : κ} {v : ν} :
    (k, v) ∈ m.between start stop ↔ (start ≤ k ∧ k < stop) ∧ m.get k = some v := by
  rw [between, mem_entries, get_restrict]
  by_cases h : start ≤ k ∧ k < stop <;> simp [h]

theorem between_after {start stop next : κ} {before after : List (κ × ν)} {e : κ × ν}
    (h : m.between start stop = before ++ e :: after) (hnext : ∀ k, next ≤ k ↔ e.1 < k) :
    m.between next stop = after := by
  have hsorted : (before ++ e :: after).Pairwise fun a b ↦ a.1 < b.1 := by
    rw [← h]
    exact pairwise_entries _
  rw [List.pairwise_append, List.pairwise_cons] at hsorted
  obtain ⟨-, ⟨hafter, hpairwise⟩, hbefore⟩ := hsorted
  refine (eq_entries hpairwise fun k v ↦ ?_).symm
  -- the listing is in the order of the keys, so what follows `e` is what has a greater key
  have hmem : (k, v) ∈ after ↔ (k, v) ∈ before ++ e :: after ∧ e.1 < k := by
    constructor
    · intro hk
      exact ⟨List.mem_append_right _ (List.mem_cons_of_mem _ hk), hafter _ hk⟩
    · rintro ⟨hk, hlt⟩
      rcases List.mem_append.mp hk with hk | hk
      · exact absurd (hbefore _ hk _ List.mem_cons_self) hlt.not_gt
      · rcases List.mem_cons.mp hk with rfl | hk
        · exact absurd hlt (lt_irrefl _)
        · exact hk
  have hstart : start ≤ e.1 := by
    have hmem : (e.1, e.2) ∈ m.between start stop := by rw [h]; simp
    exact (mem_between.mp hmem).1.1
  have hget : (m.restrict fun k ↦ next ≤ k ∧ k < stop).get k = some v ↔
      (e.1 < k ∧ k < stop) ∧ m.get k = some v := by
    rw [← hnext]
    exact mem_entries.symm.trans mem_between
  rw [hmem, ← h, mem_between, hget]
  constructor
  · rintro ⟨⟨⟨-, hstop⟩, hget⟩, hlt⟩
    exact ⟨⟨hlt, hstop⟩, hget⟩
  · rintro ⟨⟨hlt, hstop⟩, hget⟩
    exact ⟨⟨⟨hstart.trans hlt.le, hstop⟩, hget⟩, hlt⟩

end FiniteMap

end Semantics
