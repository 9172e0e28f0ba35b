import Mathlib.Order.Nat

/-!
# Bounded retries

A caller makes an attempt, and where it fails in a way that is worth it, another, as long as it has
some left. Before each of them it may find itself barred. All that the caller ends with is decided
by what each attempt comes to, a sequence of outcomes on which nothing is assumed: `retrying` runs
through it, and the lemmas say for each of the ways it may end exactly when it ends so.
-/

namespace Semantics

variable {φ α : Type}

/-- How a row of attempts ends, and with which of them. -/
inductive Verdict (φ α : Type)
  | success (k : ℕ) (a : α)
  /-- The attempt failed and no other is made. -/
  | gaveUp (k : ℕ) (e : φ)
  /-- The attempt was not begun. -/
  | barred (k : ℕ)

/-- The last attempt that the caller turned to. -/
def Verdict.last : Verdict φ α → ℕ
  | success k _ | gaveUp k _ | barred k => k

/-- What follows from the outcome of attempt `k`, where `again` is what would come of the next. -/
def conclude (worth : φ → Bool) (k : ℕ) (again : Option (Verdict φ α)) :
    Except φ α → Verdict φ α
  | .ok a => .success k a
  | .error e => if worth e then again.getD (.gaveUp k e) else .gaveUp k e

/-- Attempt `k`. -/
def turn (barred : ℕ → Bool) (worth : φ → Bool) (outcome : ℕ → Except φ α) (k : ℕ)
    (again : Option (Verdict φ α)) : Verdict φ α :=
  if barred k then .barred k else conclude worth k again (outcome k)

/-- From attempt `k` on, with the given number of retries. -/
def retrying (barred : ℕ → Bool) (worth : φ → Bool) (outcome : ℕ → Except φ α) :
    ℕ → ℕ → Verdict φ α
  | 0, k => turn barred worth outcome k none
  | left + 1, k => turn barred worth outcome k (some (retrying barred worth outcome left (k + 1)))

section

variable {barred : ℕ → Bool} {worth : φ → Bool} {outcome : ℕ → Except φ α} {k i : ℕ}
  {again : Option (Verdict φ α)} {a : α} {e : φ}

/-! ## One attempt -/

theorem turn_of_barred (h : barred k = true) :
    turn barred worth outcome k again = .barred k := if_pos h

theorem turn_of_clear (h : barred k = false) :
    turn barred worth outcome k again = conclude worth k again (outcome k) :=
  if_neg (Bool.eq_false_iff.mp h)

theorem turn_of_ok (h : barred k = false) (ha : outcome k = .ok a) :
    turn barred worth outcome k again = .success k a := by
  rw [turn_of_clear h, ha, conclude]

theorem turn_of_error (h : barred k = false) (he : outcome k = .error e) :
    turn barred worth outcome k again =
      if worth e then again.getD (.gaveUp k e) else .gaveUp k e := by
  rw [turn_of_clear h, he, conclude]

variable (barred worth outcome) in
/-- Attempt `k` is made and fails in a way that is worth another. -/
structure Repeats (k : ℕ) : Prop where
  clear : barred k = false
  fails : ∃ e, outcome k = .error e ∧ worth e = true

theorem attempt_cases (barred : ℕ → Bool) (worth : φ → Bool) (outcome : ℕ → Except φ α) (k : ℕ) :
    barred k = true ∨ (∃ a, barred k = false ∧ outcome k = .ok a) ∨
      (∃ e, barred k = false ∧ outcome k = .error e ∧ worth e = false) ∨
      Repeats barred worth outcome k := by
  cases hb : barred k with
  | true => exact Or.inl rfl
  | false =>
    cases ho : outcome k with
    | ok a => exact Or.inr (Or.inl ⟨a, rfl, rfl⟩)
    | error e =>
      cases hw : worth e with
      | false => exact Or.inr (Or.inr (Or.inl ⟨e, rfl, rfl, hw⟩))
      | true => exact Or.inr (Or.inr (Or.inr ⟨hb, e, ho, hw⟩))

theorem turn_some_of_repeats {v : Verdict φ α} (h : Repeats barred worth outcome k) :
    turn barred worth outcome k (some v) = v := by
  obtain ⟨e, he, hw⟩ := h.fails
  rw [turn_of_error h.clear he, if_pos hw, Option.getD_some]

theorem turn_of_not_repeats (h : ¬Repeats barred worth outcome k) :
    turn barred worth outcome k again = turn barred worth outcome k none := by
  rcases attempt_cases barred worth outcome k with hb | ⟨a, hb, ha⟩ | ⟨e, hb, he, hw⟩ | hrep
  · rw [turn_of_barred hb, turn_of_barred hb]
  · rw [turn_of_ok hb ha, turn_of_ok hb ha]
  · rw [turn_of_error hb he, turn_of_error hb he, hw]
    rfl
  · exact absurd hrep h

theorem turn_none_of_clear (h : barred k = false) : turn barred worth outcome k none =
    match outcome k with
    | .ok a => .success k a
    | .error e => .gaveUp k e := by
  cases ho : outcome k with
  | ok a => exact turn_of_ok h ho
  | error e => rw [turn_of_error h ho, Option.getD_none, ite_self]

theorem last_turn_none : (turn barred worth outcome k none).last = k := by
  cases hb : barred k with
  | true => rw [turn_of_barred hb, Verdict.last]
  | false =>
    rw [turn_none_of_clear hb]
    cases outcome k <;> rw [Verdict.last]

theorem turn_none_eq_success_iff :
    turn barred worth outcome k none = .success i a ↔
      k = i ∧ barred i = false ∧ outcome i = .ok a := by
  cases hb : barred k with
  | true =>
    rw [turn_of_barred hb]
    grind
  | false =>
    rw [turn_none_of_clear hb]
    grind

theorem turn_none_eq_gaveUp_iff :
    turn barred worth outcome k none = .gaveUp i e ↔
      k = i ∧ barred i = false ∧ outcome i = .error e := by
  cases hb : barred k with
  | true =>
    rw [turn_of_barred hb]
    grind
  | false =>
    rw [turn_none_of_clear hb]
    grind

/-! ## The whole row -/

variable (barred worth outcome)

/-- The attempts from `k` on lead up to attempt `i`. -/
structure LeadsTo (k i : ℕ) : Prop where
  le : k ≤ i
  repeats : ∀ j, k ≤ j → j < i → Repeats barred worth outcome j

/-- With `n` the last attempt there is, no attempt is made after `i`. -/
def Stops (n i : ℕ) : Prop := i = n ∨ ¬Repeats barred worth outcome i

variable {barred worth outcome}

theorem LeadsTo.refl : LeadsTo barred worth outcome k k :=
  ⟨le_rfl, fun _ h h' ↦ absurd h (not_le_of_gt h')⟩

theorem LeadsTo.cons (h : Repeats barred worth outcome k)
    (hi : LeadsTo barred worth outcome (k + 1) i) : LeadsTo barred worth outcome k i := by
  refine ⟨(Nat.le_succ k).trans hi.le, fun j hkj hji ↦ ?_⟩
  rcases Nat.eq_or_lt_of_le hkj with rfl | hlt
  · exact h
  · exact hi.repeats j hlt hji

variable (barred worth outcome) in
/-- **Every row ends**, within the attempts there are: with the last of them, or with an earlier one
that is not worth another. -/
theorem retrying_ends (left k : ℕ) : ∃ i, LeadsTo barred worth outcome k i ∧ i ≤ k + left ∧
    Stops barred worth outcome (k + left) i ∧
    retrying barred worth outcome left k = turn barred worth outcome i none := by
  induction left generalizing k with
  | zero => exact ⟨k, .refl, le_rfl, Or.inl rfl, rfl⟩
  | succ left ih =>
    by_cases hk : Repeats barred worth outcome k
    · obtain ⟨i, hi, hle, hstop, heq⟩ := ih (k + 1)
      rw [Nat.succ_add_eq_add_succ] at hle hstop
      refine ⟨i, hi.cons hk, hle, hstop, ?_⟩
      rw [retrying, turn_some_of_repeats hk, heq]
    · exact ⟨k, .refl, Nat.le_add_right .., Or.inr hk, turn_of_not_repeats hk⟩

theorem LeadsTo.unique {i' n : ℕ} (h : LeadsTo barred worth outcome k i)
    (h' : LeadsTo barred worth outcome k i') (hle : i ≤ n) (hle' : i' ≤ n)
    (hi : Stops barred worth outcome n i) (hi' : Stops barred worth outcome n i') : i = i' := by
  rcases lt_trichotomy i i' with hlt | heq | hgt
  · have hrep := h'.repeats i h.le hlt
    exact absurd hrep (hi.resolve_left (by omega))
  · exact heq
  · have hrep := h.repeats i' h'.le hgt
    exact absurd hrep (hi'.resolve_left (by omega))

/-- **What a row ends with** is what its last attempt is, and the others lead up to that one. -/
theorem retrying_eq_iff {left : ℕ} {v : Verdict φ α} :
    retrying barred worth outcome left k = v ↔
      ∃ i, LeadsTo barred worth outcome k i ∧ i ≤ k + left ∧
        Stops barred worth outcome (k + left) i ∧ turn barred worth outcome i none = v := by
  obtain ⟨i, h, hle, hstop, heq⟩ := retrying_ends barred worth outcome left k
  rw [heq]
  constructor
  · exact fun hv ↦ ⟨i, h, hle, hstop, hv⟩
  · rintro ⟨i', h', hle', hstop', hv⟩
    rw [h.unique h' hle hle' hstop hstop', hv]

variable (barred worth outcome) in
/-- **The attempts made**: no more than there are, and each but the last failed in a way that was
worth another. -/
theorem leadsTo_last (left k : ℕ) :
    LeadsTo barred worth outcome k (retrying barred worth outcome left k).last ∧
      (retrying barred worth outcome left k).last ≤ k + left := by
  obtain ⟨i, h, hle, -, heq⟩ := retrying_ends barred worth outcome left k
  rw [heq, last_turn_none]
  exact ⟨h, hle⟩

/-- **A row succeeds** with the attempt that does, where the others lead up to it. -/
theorem retrying_eq_success_iff {left : ℕ} :
    retrying barred worth outcome left k = .success i a ↔
      LeadsTo barred worth outcome k i ∧ i ≤ k + left ∧ barred i = false ∧
        outcome i = .ok a := by
  rw [retrying_eq_iff]
  constructor
  · rintro ⟨i', h, hle, -, hv⟩
    obtain ⟨rfl, hok⟩ := turn_none_eq_success_iff.mp hv
    exact ⟨h, hle, hok⟩
  · rintro ⟨h, hle, hb, ho⟩
    refine ⟨i, h, hle, Or.inr fun hrep ↦ ?_, turn_none_eq_success_iff.mpr ⟨rfl, hb, ho⟩⟩
    obtain ⟨e, he, -⟩ := hrep.fails
    exact nomatch ho.symm.trans he

/-- **A row is given up** with the attempt that fails last: there is no other, or it is not worth
one. -/
theorem retrying_eq_gaveUp_iff {left : ℕ} :
    retrying barred worth outcome left k = .gaveUp i e ↔
      LeadsTo barred worth outcome k i ∧ i ≤ k + left ∧ barred i = false ∧
        outcome i = .error e ∧ (i = k + left ∨ worth e = false) := by
  rw [retrying_eq_iff]
  constructor
  · rintro ⟨i', h, hle, hstop, hv⟩
    obtain ⟨rfl, hb, he⟩ := turn_none_eq_gaveUp_iff.mp hv
    refine ⟨h, hle, hb, he, hstop.imp id fun hrep ↦ ?_⟩
    exact Bool.eq_false_iff.mpr fun hw ↦ hrep ⟨hb, e, he, hw⟩
  · rintro ⟨h, hle, hb, he, hstop⟩
    refine ⟨i, h, hle, hstop.imp id fun hw hrep ↦ ?_, turn_none_eq_gaveUp_iff.mpr ⟨rfl, hb, he⟩⟩
    obtain ⟨e', he', hw'⟩ := hrep.fails
    obtain rfl : e = e' := Except.error.inj (he.symm.trans he')
    exact Bool.false_ne_true (hw.symm.trans hw')

end

end Semantics
