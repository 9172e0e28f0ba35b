import Mathlib.Data.List.Lex
import Mathlib.Order.Lattice

/-!
# Binary search

The search of a sorted list that halves the number of candidates and asks of each middle one
whether it is greater than what is looked for. It never stops early: only the last candidate is
compared for equality. So the search itself needs to know no more of the order than which places
are above, and the order enters where it is shown that, in a sorted list, these are the places
behind the one looked for.
-/

namespace Semantics

/-- Of the `size` places from `base` on, the last that is not above. `fuel` bounds the number of
halvings. -/
def narrow (above : ℕ → Bool) : (fuel size base : ℕ) → ℕ
  | 0, _, base => base
  | fuel + 1, size, base =>
    if 1 < size then
      narrow above fuel (size - size / 2)
        (if above (base + size / 2) then base else base + size / 2)
    else base

variable {α : Type*} [LT α] [DecidableLT α] [DecidableEq α]

/-- Whether the place `i` holds more than `x`. -/
def above (l : List α) (x : α) (i : ℕ) : Bool := l[i]?.any fun y ↦ decide (x < y)

/-- The place of `x` in a sorted list. -/
def binarySearch (l : List α) (x : α) : Option ℕ :=
  let base := narrow (above l x) l.length l.length 0
  if l[base]? = some x then some base else none

/-- Each halving keeps the place `k` behind which everything is above among the candidates. -/
theorem narrow_eq {above : ℕ → Bool} {k : ℕ} (fuel : ℕ) {size base : ℕ} (hfuel : size ≤ fuel)
    (habove : ∀ i, i < base + size → (above i = true ↔ k < i)) (hlow : base ≤ k)
    (hhigh : k < base + size) : narrow above fuel size base = k := by
  induction fuel generalizing size base with
  | zero => omega
  | succ fuel ih =>
    rw [narrow]
    by_cases hsize : 1 < size
    · have hmid := habove (base + size / 2) (by omega)
      rw [if_pos hsize]
      cases hc : above (base + size / 2) with
      | true =>
        have hk := hmid.mp hc
        rw [if_pos rfl]
        exact ih (by omega) (fun i hi ↦ habove i (by omega)) hlow (by omega)
      | false =>
        have hk : ¬k < base + size / 2 := fun h ↦ by simp [hc] at hmid; omega
        rw [if_neg Bool.false_ne_true]
        exact ih (by omega) (fun i hi ↦ habove i (by omega)) (by omega) (by omega)
    · rw [if_neg hsize]
      omega

omit [DecidableEq α] in
theorem above_iff {l : List α} {x : α} {k i : ℕ} (hasymm : ∀ a b : α, a < b → ¬b < a)
    (hsorted : l.Pairwise (· < ·)) (hk : l[k]? = some x) (hi : i < l.length) :
    above l x i = true ↔ k < i := by
  obtain ⟨hklen, rfl⟩ := List.getElem?_eq_some_iff.mp hk
  rw [above, List.getElem?_eq_getElem hi, Option.any_some, decide_eq_true_iff]
  have hpairs := List.pairwise_iff_getElem.mp hsorted
  constructor
  · intro hlt
    by_contra hle
    rcases Nat.lt_or_eq_of_le (not_lt.mp hle) with hik | rfl
    · exact hasymm _ _ hlt (hpairs i k hi hklen hik)
    · exact hasymm _ _ hlt hlt
  · exact hpairs k i hklen hi

/-- **Binary search of a sorted list finds exactly its elements.** -/
theorem isSome_binarySearch_iff {l : List α} {x : α} (hasymm : ∀ a b : α, a < b → ¬b < a)
    (hsorted : l.Pairwise (· < ·)) : (binarySearch l x).isSome = true ↔ x ∈ l := by
  rw [binarySearch]
  constructor
  · intro h
    by_contra hx
    rw [if_neg fun hbase ↦ hx (List.mem_of_getElem? hbase)] at h
    exact Bool.false_ne_true h
  · intro hx
    obtain ⟨k, hk⟩ := List.mem_iff_getElem?.mp hx
    have hklen := (List.getElem?_eq_some_iff.mp hk).1
    have hbase : narrow (above l x) l.length l.length 0 = k :=
      narrow_eq l.length le_rfl (fun i hi ↦ above_iff hasymm hsorted hk (by omega)) (Nat.zero_le k)
        (by omega)
    rw [hbase, if_pos hk]
    rfl

end Semantics
