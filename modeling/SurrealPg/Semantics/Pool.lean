import Mathlib.Logic.Function.Basic
import SurrealPg.Semantics.Dialogue
import SurrealPg.Semantics.Machine

/-!
# Interleaving dialogues over a shared memory

A pool is a memory and the calls made so far. A step makes a new call, answers the request one
call is waiting on, as the server allows in the present memory, or abandons one call at an await
point, which applies the note the program left there. A request the server does not answer blocks
its call and nobody else. Every interleaving of any number of calls is a run of the pool.
-/

namespace Semantics

/-- What the memory does for the calls: how it may answer a request of call `i`, and what remains
of a note when call `i` is abandoned. -/
structure Server (ι Q : Type) (R : Q → Type) (U σ : Type) where
  /-- Call `i`, in memory `s`, asking `q`, may be answered `r`, leaving memory `s'`. -/
  answer : (i : ι) → (s : σ) → (q : Q) → (r : R q) → (s' : σ) → Prop
  /-- Abandoning call `i` at a request with note `u`. -/
  unwind : (i : ι) → (s : σ) → (u : U) → (s' : σ) → Prop

/-- A call `c` that is under way or has returned, with the rest `x` of what it does, or one that
was abandoned. -/
inductive Task (C X : Type)
  | live (c : C) (x : X)
  | dropped (c : C)

/-! ## Once one call has gone on -/

section Update

variable {ι β C X : Type} [DecidableEq ι] {i j : ι}

theorem update_eq_none {f : ι → Option β} {t : β} (h : Function.update f i (some t) j = none) :
    j ≠ i ∧ f j = none := by
  by_cases hji : j = i
  · rw [hji, Function.update_self] at h
    exact absurd h (Option.some_ne_none t)
  · rw [Function.update_of_ne hji] at h
    exact ⟨hji, h⟩

theorem update_eq_some {f : ι → Option β} {t s : β}
    (h : Function.update f i (some t) j = some s) : j = i ∧ t = s ∨ j ≠ i ∧ f j = some s := by
  by_cases hji : j = i
  · rw [hji, Function.update_self] at h
    exact Or.inl ⟨hji, Option.some.inj h⟩
  · rw [Function.update_of_ne hji] at h
    exact Or.inr ⟨hji, h⟩

/-- A call that is live afterwards is the one that went on, or it was live before. -/
theorem update_eq_live {f : ι → Option (Task C X)} {c c' : C} {x x' : X}
    (h : Function.update f i (some (.live c x)) j = some (.live c' x')) :
    j = i ∧ c' = c ∧ x' = x ∨ j ≠ i ∧ f j = some (.live c' x') := by
  refine (update_eq_some h).imp_left fun ⟨hji, ht⟩ ↦ ?_
  obtain ⟨rfl, rfl⟩ := Task.live.inj ht
  exact ⟨hji, rfl, rfl⟩

end Update

/-- What an observer of a pool sees. -/
inductive PoolEvent (ι C Q : Type) (R : Q → Type)
  | called (i : ι) (c : C)
  | answered (i : ι) (q : Q) (r : R q)
  | abandoned (i : ι) (q : Q)

/-- A memory shared by the calls made so far. -/
structure Pool (ι C Q : Type) (R : Q → Type) (U α σ : Type) where
  mem : σ
  task : ι → Option (Task C (Dialogue Q R U α))

namespace Pool

variable {ι C Q : Type} {R : Q → Type} {U α σ : Type} [DecidableEq ι]

/-- Call `i` goes on as `t` and the memory becomes `s`. -/
def advance (p : Pool ι C Q R U α σ) (i : ι) (t : Task C (Dialogue Q R U α)) (s : σ) :
    Pool ι C Q R U α σ where
  mem := s
  task := Function.update p.task i (some t)

@[simp] theorem advance_task_self (p : Pool ι C Q R U α σ) (i : ι)
    (t : Task C (Dialogue Q R U α)) (s : σ) : (p.advance i t s).task i = some t :=
  Function.update_self ..

theorem advance_task_of_ne (p : Pool ι C Q R U α σ) {i j : ι}
    (t : Task C (Dialogue Q R U α)) (s : σ) (h : j ≠ i) :
    (p.advance i t s).task j = p.task j := Function.update_of_ne h ..

theorem advance_advance (p : Pool ι C Q R U α σ) (i : ι) (t t' : Task C (Dialogue Q R U α))
    (s s' : σ) : (p.advance i t s).advance i t' s' = p.advance i t' s' := by
  rw [advance, advance, advance, Function.update_idem]

theorem forall_live_advance {p : Pool ι C Q R U α σ} {P : C → Dialogue Q R U α → Prop}
    (h : ∀ j c d, p.task j = some (.live c d) → P c d) {i : ι} {t : Task C (Dialogue Q R U α)}
    {s : σ} (ht : ∀ c d, t = .live c d → P c d) (j : ι) (c : C) (d : Dialogue Q R U α)
    (hj : (p.advance i t s).task j = some (.live c d)) : P c d := by
  rcases update_eq_some hj with ⟨-, hlive⟩ | ⟨-, hj⟩
  · exact ht c d hlive
  · exact h j c d hj

/-- One step of a pool over the server `S`, in which a call `c` runs the program `code c`. -/
inductive Step (S : Server ι Q R U σ) (code : C → Dialogue Q R U α) :
    Pool ι C Q R U α σ → PoolEvent ι C Q R → Pool ι C Q R U α σ → Prop
  | call {p : Pool ι C Q R U α σ} (i : ι) (c : C) :
      p.task i = none → Step S code p (.called i c) (p.advance i (.live c (code c)) p.mem)
  | answer {p : Pool ι C Q R U α σ} (i : ι) {c : C} (q : Q) {u : Option U}
      {next : R q → Dialogue Q R U α} (r : R q) {s' : σ} :
      p.task i = some (.live c (.ask q u next)) → S.answer i p.mem q r s' →
      Step S code p (.answered i q r) (p.advance i (.live c (next r)) s')
  | abandon {p : Pool ι C Q R U α σ} (i : ι) {c : C} (q : Q) {u : U}
      {next : R q → Dialogue Q R U α} {s' : σ} :
      p.task i = some (.live c (.ask q (some u) next)) → S.unwind i p.mem u s' →
      Step S code p (.abandoned i q) (p.advance i (.dropped c) s')

/-- The pool in which no call has been made. -/
def start (s : σ) : Pool ι C Q R U α σ where
  mem := s
  task _ := none

/-- Call `i` is waiting for the answer to a request satisfying `P`. -/
def Waiting (p : Pool ι C Q R U α σ) (i : ι) (P : Q → Prop) : Prop :=
  ∃ c q u next, p.task i = some (.live c (.ask q u next)) ∧ P q

/-- Call `i` was `c` and has returned `a`. -/
def Returned (p : Pool ι C Q R U α σ) (i : ι) (c : C) (a : α) : Prop :=
  p.task i = some (.live c (.done a))

end Pool

/-! ## Extending a run -/

section Extend

variable {ι C Q : Type} {R : Q → Type} {U α σ : Type} [DecidableEq ι] {S : Server ι Q R U σ}
  {code : C → Dialogue Q R U α} {p₀ p : Pool ι C Q R U α σ} {tr : List (PoolEvent ι C Q R)}

theorem Run.called (h : Run (Pool.Step S code) p₀ tr p) (i : ι) (c : C) (hi : p.task i = none) :
    Run (Pool.Step S code) p₀ (tr ++ [.called i c]) (p.advance i (.live c (code c)) p.mem) :=
  h.snoc (.call i c hi)

theorem Run.answered (h : Run (Pool.Step S code) p₀ tr p) (i : ι) (q : Q) (r : R q) (s' : σ)
    {c : C} {u : Option U} {next : R q → Dialogue Q R U α}
    (hi : p.task i = some (.live c (.ask q u next))) (hans : S.answer i p.mem q r s') :
    Run (Pool.Step S code) p₀ (tr ++ [.answered i q r]) (p.advance i (.live c (next r)) s') :=
  h.snoc (.answer i q r hi hans)

theorem Run.abandoned (h : Run (Pool.Step S code) p₀ tr p) (i : ι) (q : Q) (s' : σ) {c : C}
    {u : U} {next : R q → Dialogue Q R U α}
    (hi : p.task i = some (.live c (.ask q (some u) next))) (hun : S.unwind i p.mem u s') :
    Run (Pool.Step S code) p₀ (tr ++ [.abandoned i q]) (p.advance i (.dropped c) s') :=
  h.snoc (.abandon i q hi hun)

end Extend

end Semantics
