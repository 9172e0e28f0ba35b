import Mathlib.Data.List.Lex
import Mathlib.Order.Lattice

/-!
# Reading a listing batch by batch

A driver holds a cursor. It reads the batch at the cursor, stops if the batch is shorter than the
limit, and otherwise derives the next cursor from the last batch and goes on; what it returns is
the batches one after another. Reading may change the state it reads from.

The invariant is the rest of the listing: what is left to read from the present cursor on. If every
batch is the beginning of the rest, and the next cursor stands for what remains after it, a driver
that gets to its end has returned the rest it started with, and it gets there as long as the limit
is positive and a next cursor can be had.

A cursor for byte strings, or for lists over any order with a least element, is the last key with
the least element put behind it: nothing lies between a list and that extension of it.
-/

namespace Semantics

variable {σ C α : Type}

/-- The complete runs of a driver with batches of `n`: from the state and the cursor, the list
returned and the state left. -/
inductive Paged (read : σ → C → Option (List α) × σ) (next : C → List α → Option C) (n : ℕ) :
    σ → C → List α → σ → Prop
  | short {s s' : σ} {c : C} {batch : List α} :
      read s c = (some batch, s') → batch.length < n → Paged read next n s c batch s'
  | full {s s' s'' : σ} {c c' : C} {batch rest : List α} :
      read s c = (some batch, s') → n ≤ batch.length → next c batch = some c' →
      Paged read next n s' c' rest s'' → Paged read next n s c (batch ++ rest) s''

/-- `Rest s c l`: from the cursor `c` on, `l` is left to read in the state `s`. Batches are taken
off its front. -/
structure TakesRest (read : σ → C → Option (List α) × σ) (next : C → List α → Option C) (n : ℕ)
    (Rest : σ → C → List α → Prop) : Prop where
  batch : ∀ {s c l}, Rest s c l → (read s c).1 = some (l.take n)
  next : ∀ {s c l c'}, Rest s c l → n ≤ l.length → next c (l.take n) = some c' →
    Rest (read s c).2 c' (l.drop n)

namespace TakesRest

variable {read : σ → C → Option (List α) × σ} {next : C → List α → Option C} {n : ℕ}
  {Rest : σ → C → List α → Prop} {s s' : σ} {c : C} {l l' : List α}

/-- **What a complete run returns** is the rest it started with. -/
theorem eq_of_paged (h : TakesRest read next n Rest) (hrun : Paged read next n s c l' s')
    (hrest : Rest s c l) : l' = l := by
  induction hrun generalizing l with
  | short hread hlt =>
    have hbatch := h.batch hrest
    rw [hread, Option.some.injEq] at hbatch
    rw [hbatch, List.length_take] at hlt
    rw [hbatch, List.take_of_length_le (by omega)]
  | full hread hle hnext _ ih =>
    have hbatch := h.batch hrest
    rw [hread, Option.some.injEq] at hbatch
    rw [hbatch, List.length_take] at hle
    rw [hbatch] at hnext
    have hrest' := h.next hrest (by omega) hnext
    rw [hread] at hrest'
    rw [ih hrest', hbatch, List.take_append_drop]

/-- **A complete run exists**, by induction on how much is left, where the limit is positive and a
next cursor can always be had. -/
theorem exists_paged (h : TakesRest read next n Rest) (hn : 1 ≤ n)
    (hnext : ∀ {s c l}, Rest s c l → n ≤ l.length → ∃ c', next c (l.take n) = some c')
    (hrest : Rest s c l) : ∃ s', Paged read next n s c l s' := by
  induction hlen : l.length using Nat.strong_induction_on generalizing s c l with
  | _ len ih =>
    have hread : read s c = (some (l.take n), (read s c).2) := Prod.ext (h.batch hrest) rfl
    by_cases hle : n ≤ l.length
    · obtain ⟨c', hc'⟩ := hnext hrest hle
      have hdrop : (l.drop n).length < len := by rw [List.length_drop]; omega
      obtain ⟨s', hs'⟩ := ih _ hdrop (h.next hrest hle hc') rfl
      have hfull : n ≤ (l.take n).length := by rw [List.length_take]; omega
      have hpaged := Paged.full hread hfull hc' hs'
      rw [List.take_append_drop] at hpaged
      exact ⟨s', hpaged⟩
    · have hshort : l.take n = l := List.take_of_length_le (by omega)
      rw [hshort] at hread
      exact ⟨_, .short hread (by omega)⟩

end TakesRest

/-- **The immediate successor of a list** puts the least element behind it. -/
theorem append_least_le_iff [LinearOrder α] {z : α} (hz : ∀ a, z ≤ a) {k k' : List α} :
    k ++ [z] ≤ k' ↔ k < k' := by
  rw [← not_lt, not_iff_comm]
  induction k generalizing k' with
  | nil =>
    cases k' with
    | nil => simp
    | cons a k' => simp [List.cons_lt_cons_iff, (hz a).not_gt]
  | cons b k ih =>
    cases k' with
    | nil => simp
    | cons a k' =>
      rw [List.cons_append, List.cons_lt_cons_iff, List.cons_lt_cons_iff, ← ih]
      rcases lt_trichotomy a b with hlt | rfl | hlt
      · simp [hlt, hlt.not_gt, hlt.ne']
      · simp
      · simp [hlt, hlt.not_gt, hlt.ne']

end Semantics
