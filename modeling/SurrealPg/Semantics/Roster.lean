import Mathlib.Algebra.BigOperators.Fin
import Mathlib.Algebra.Order.BigOperators.Group.Finset
import SurrealPg.Semantics.Machine

/-!
# Parties that join and act

A roster is a list of parties, each with a state of its own, and something they share. A step lets
a new party join or one party act; an act shows an event, and the event alone decides what becomes
of what is shared. So every party lives its own run whatever the others do, and a quantity counted
over all events is the sum of what each party contributed in its own history.
-/

namespace Semantics

/-- Parties with states of their own, and what they share. -/
structure Roster (X A : Type*) where
  shared : A
  party : List X

/-- What an observer of a roster sees. -/
inductive RosterEvent (E : Type*)
  | joined
  | acted (k : ℕ) (e : E)

namespace RosterEvent

variable {E : Type*}

/-- An act showing an event that satisfies `P`. -/
def shows (P : E → Bool) : RosterEvent E → Bool
  | joined => false
  | acted _ e => P e

/-- The event shown by party `k`, if it is one of its acts. -/
def byParty (k : ℕ) : RosterEvent E → Option E
  | joined => none
  | acted j e => if j = k then some e else none

/-- What party `k` has shown, in order. -/
def history (k : ℕ) (tr : List (RosterEvent E)) : List E := tr.filterMap (byParty k)

theorem history_append_joined (k : ℕ) (tr : List (RosterEvent E)) :
    history k (tr ++ [joined]) = history k tr := by
  rw [history, List.filterMap_append]
  exact List.append_nil _

theorem history_append_self (k : ℕ) (tr : List (RosterEvent E)) (e : E) :
    history k (tr ++ [acted k e]) = history k tr ++ [e] := by
  rw [history, List.filterMap_append, ← history]
  simp [byParty]

theorem history_append_of_ne {j k : ℕ} (h : j ≠ k) (tr : List (RosterEvent E)) (e : E) :
    history k (tr ++ [acted j e]) = history k tr := by
  rw [history, List.filterMap_append, ← history]
  simp [byParty, h]

theorem countP_append_joined (P : E → Bool) (tr : List (RosterEvent E)) :
    (tr ++ [joined]).countP (shows P) = tr.countP (shows P) := countP_snoc ..

theorem countP_append_acted (P : E → Bool) (tr : List (RosterEvent E)) (k : ℕ) (e : E) :
    (tr ++ [acted k e]).countP (shows P) = tr.countP (shows P) + (P e).toNat := countP_snoc ..

end RosterEvent

open RosterEvent

namespace Roster

variable {X A E : Type*} {new : X → Prop} {act : X → E → X → Prop} {effect : E → A → A}
  {a₀ : A} {tr : List (RosterEvent E)} {r : Roster X A} {k : ℕ} {x : X}

/-- A new party joins in a state satisfying `new`, or party `k` acts. -/
inductive Step (new : X → Prop) (act : X → E → X → Prop) (effect : E → A → A) :
    Roster X A → RosterEvent E → Roster X A → Prop
  | join {r : Roster X A} (x : X) : new x →
    Step new act effect r .joined ⟨r.shared, r.party ++ [x]⟩
  | act {r : Roster X A} (k : ℕ) {x : X} (e : E) (x' : X) : r.party[k]? = some x → act x e x' →
    Step new act effect r (.acted k e) ⟨effect e r.shared, r.party.set k x'⟩

/-- The roster nobody has joined. -/
def start (a : A) : Roster X A := ⟨a, []⟩

/-- **Every party lives a run of its own**, and nobody acts before joining. -/
theorem party_run (h : Run (Step new act effect) (start a₀) tr r) :
    (∀ k x, r.party[k]? = some x → ∃ x₀, new x₀ ∧ Run act x₀ (history k tr) x) ∧
      ∀ k, r.party.length ≤ k → history k tr = [] := by
  induction h with
  | nil => exact ⟨nofun, fun k _ ↦ rfl⟩
  | @snoc tr r r' e _ hs ih =>
    obtain ⟨hrun, hfresh⟩ := ih
    cases hs with
    | join x hx =>
      refine ⟨fun k y hy ↦ ?_, fun k hk ↦ ?_⟩
      · rw [history_append_joined]
        rw [List.getElem?_append] at hy
        split_ifs at hy with hlt
        · exact hrun k y hy
        · obtain rfl : x = y := by
            cases hk : k - r.party.length with
            | zero => rw [hk] at hy; exact Option.some.inj hy
            | succ n => rw [hk] at hy; exact nomatch hy
          exact ⟨x, hx, hfresh k (Nat.le_of_not_lt hlt) ▸ .nil⟩
      · rw [history_append_joined]
        rw [List.length_append] at hk
        exact hfresh k (Nat.le_trans (Nat.le_add_right _ _) hk)
    | act j e x' hj hact =>
      have hlt : j < r.party.length := (List.getElem?_eq_some_iff.mp hj).1
      refine ⟨fun k y hy ↦ ?_, fun k hk ↦ ?_⟩
      · by_cases hjk : j = k
        · subst hjk
          rw [List.getElem?_set_self hlt] at hy
          obtain rfl := Option.some.inj hy
          obtain ⟨x₀, hx₀, hrun'⟩ := hrun j _ hj
          exact ⟨x₀, hx₀, history_append_self j tr e ▸ hrun'.snoc hact⟩
        · rw [history_append_of_ne hjk]
          rw [List.getElem?_set_ne hjk] at hy
          exact hrun k y hy
      · rw [List.length_set] at hk
        rw [history_append_of_ne (by omega)]
        exact hfresh k hk

/-- What a party can do by itself, it can do in the roster. -/
theorem act_run {x' : X} {es : List E} (hk : r.party[k]? = some x) (h : Run act x es x') :
    Run (Step new act effect) r (es.map (acted k))
      ⟨es.foldl (fun a e ↦ effect e a) r.shared, r.party.set k x'⟩ := by
  induction h with
  | nil =>
    obtain ⟨hlt, rfl⟩ := List.getElem?_eq_some_iff.mp hk
    rw [List.set_getElem_self]
    exact .nil
  | @snoc es y z e _ hact ih =>
    have hlt : k < r.party.length := (List.getElem?_eq_some_iff.mp hk).1
    rw [List.map_append, List.foldl_append, ← List.set_set (a := y)]
    exact ih.snoc (.act k e z (List.getElem?_set_self hlt) hact)

/-- **A count is a sum over the parties.** -/
theorem countP_eq_sum (h : Run (Step new act effect) (start a₀) tr r) (P : E → Bool) :
    tr.countP (shows P) = ∑ k ∈ Finset.range r.party.length, (history k tr).countP P := by
  induction h with
  | nil => rfl
  | @snoc tr r r' e hrun hs ih =>
    cases hs with
    | join x hx =>
      have hfresh := (party_run hrun).2 r.party.length (Nat.le_refl _)
      rw [countP_append_joined, ih, List.length_append, List.length_singleton,
        Finset.sum_range_succ, history_append_joined, hfresh]
      refine Finset.sum_congr rfl fun k _ ↦ ?_
      rw [history_append_joined]
    | act j e x' hj hact =>
      have hlt : j ∈ Finset.range r.party.length :=
        Finset.mem_range.mpr (List.getElem?_eq_some_iff.mp hj).1
      rw [countP_append_acted, ih, List.length_set, ← Finset.add_sum_erase _ _ hlt,
        ← Finset.add_sum_erase _ _ hlt, history_append_self, countP_snoc, Nat.add_right_comm]
      refine congrArg₂ (· + ·) rfl (Finset.sum_congr rfl fun k hk ↦ ?_)
      rw [history_append_of_ne (Finset.ne_of_mem_erase hk).symm]

/-- What holds between two counts of every party holds between the two totals. -/
theorem countP_le_countP (h : Run (Step new act effect) (start a₀) tr r) {P P' : E → Bool}
    (hle : ∀ k x, r.party[k]? = some x →
      (history k tr).countP P ≤ (history k tr).countP P') :
    tr.countP (shows P) ≤ tr.countP (shows P') := by
  rw [countP_eq_sum h, countP_eq_sum h]
  refine Finset.sum_le_sum fun k hk ↦ ?_
  exact hle k _ (List.getElem?_eq_getElem (Finset.mem_range.mp hk))

/-- A count that every party's state makes up for by `w`, made up for by the sum. -/
theorem countP_add_sum (h : Run (Step new act effect) (start a₀) tr r) {P P' : E → Bool}
    {w : X → ℕ} (heq : ∀ k x, r.party[k]? = some x →
      (history k tr).countP P + w x = (history k tr).countP P') :
    tr.countP (shows P) + (r.party.map w).sum = tr.countP (shows P') := by
  rw [countP_eq_sum h, countP_eq_sum h, ← Fin.sum_univ_fun_getElem, Finset.sum_range,
    Finset.sum_range, ← Finset.sum_add_distrib]
  refine Finset.sum_congr rfl fun k _ ↦ ?_
  exact heq k _ (List.getElem?_eq_getElem k.isLt)

theorem sum_map_toNat (p : X → Bool) (l : List X) :
    (l.map fun x ↦ (p x).toNat).sum = l.countP p := by
  induction l with
  | nil => rfl
  | cons x l ih =>
    rw [List.map_cons, List.sum_cons, ih, List.countP_cons, Nat.add_comm]
    cases p x <;> rfl

end Roster

end Semantics
