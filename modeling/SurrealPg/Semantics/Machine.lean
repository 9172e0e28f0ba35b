import Mathlib.Data.List.Basic

/-!
# Runs of a labelled transition system

A step relation `σ → E → σ → Prop` takes a state to a state and shows an event. A run records the
events in order, and everything proved about all runs goes through one induction: a property of
the history and the state that holds at the start and survives every step.
-/

namespace Semantics

variable {σ E : Type*}

theorem countP_snoc (P : E → Bool) (tr : List E) (e : E) :
    (tr ++ [e]).countP P = tr.countP P + (P e).toNat := by
  rw [List.countP_append, List.countP_singleton]
  cases P e <;> rfl

theorem countP_or {P Q : E → Bool} (h : ∀ e, P e = true → Q e = false) (tr : List E) :
    tr.countP (fun e ↦ P e || Q e) = tr.countP P + tr.countP Q := by
  induction tr with
  | nil => rfl
  | cons e tr ih =>
    rw [List.countP_cons, List.countP_cons, List.countP_cons, ih]
    cases he : P e with
    | true =>
      rw [h e he]
      exact Nat.add_right_comm ..
    | false => exact Nat.add_assoc ..

/-- The runs of `step` from `s₀`: the events shown, in order, and the state reached. -/
inductive Run (step : σ → E → σ → Prop) (s₀ : σ) : List E → σ → Prop
  | nil : Run step s₀ [] s₀
  | snoc {tr : List E} {s s' : σ} {e : E} :
      Run step s₀ tr s → step s e s' → Run step s₀ (tr ++ [e]) s'

namespace Run

variable {step : σ → E → σ → Prop} {s₀ s s' : σ} {tr tr' : List E} {e : E}

/-- **The invariant rule.** A property of the history and the state is a property of every run as
soon as it holds at the start and every step taken under it keeps it. -/
theorem invariant {I : List E → σ → Prop} (h₀ : I [] s₀)
    (hstep : ∀ {tr s e s'}, I tr s → step s e s' → I (tr ++ [e]) s')
    (h : Run step s₀ tr s) : I tr s := by
  induction h with
  | nil => exact h₀
  | snoc _ hs ih => exact hstep ih hs

theorem single (h : step s₀ e s) : Run step s₀ [e] s := nil.snoc h

theorem trans (h : Run step s₀ tr s) (h' : Run step s tr' s') : Run step s₀ (tr ++ tr') s' := by
  induction h' with
  | nil => rwa [List.append_nil]
  | snoc _ hs ih => rw [← List.append_assoc]; exact ih.snoc hs

theorem cons (h : step s₀ e s) (h' : Run step s tr s') : Run step s₀ (e :: tr) s' :=
  (single h).trans h'

theorem here (_ : Run step s₀ tr s) : Run step s [] s := nil

theorem map {σ' E' : Type*} {step' : σ' → E' → σ' → Prop} (f : σ → σ') (g : E → E')
    (hsim : ∀ s e s', step s e s' → step' (f s) (g e) (f s')) (h : Run step s₀ tr s) :
    Run step' (f s₀) (tr.map g) (f s) := by
  induction h with
  | nil => exact nil
  | snoc _ hs ih => rw [List.map_append]; exact ih.snoc (hsim _ _ _ hs)

/-- Two machines that agree on the states one of them gets to have the same runs. -/
theorem congr {step' : σ → E → σ → Prop} {I : σ → Prop} (h₀ : I s₀)
    (hI : ∀ s e s', I s → step s e s' → I s')
    (hstep : ∀ s e s', I s → (step s e s' ↔ step' s e s')) :
    Run step s₀ tr s ↔ Run step' s₀ tr s := by
  constructor
  · intro h
    have key : I s ∧ Run step' s₀ tr s := by
      induction h with
      | nil => exact ⟨h₀, nil⟩
      | snoc _ hs ih => exact ⟨hI _ _ _ ih.1 hs, ih.2.snoc ((hstep _ _ _ ih.1).mp hs)⟩
    exact key.2
  · intro h
    have key : I s ∧ Run step s₀ tr s := by
      induction h with
      | nil => exact ⟨h₀, nil⟩
      | snoc _ hs ih =>
        have hs := (hstep _ _ _ ih.1).mpr hs
        exact ⟨hI _ _ _ ih.1 hs, ih.2.snoc hs⟩
    exact key.2

theorem split (h : Run step s₀ (tr ++ tr') s) :
    ∃ m, Run step s₀ tr m ∧ Run step m tr' s := by
  generalize hl : tr ++ tr' = l at h
  induction h generalizing tr' with
  | nil =>
    obtain ⟨rfl, rfl⟩ := List.append_eq_nil_iff.mp hl
    exact ⟨s₀, nil, nil⟩
  | @snoc l s s' e hrun hs ih =>
    rcases List.eq_nil_or_concat tr' with rfl | ⟨tr'', e', rfl⟩
    · rw [List.append_nil] at hl
      exact ⟨s', hl ▸ hrun.snoc hs, nil⟩
    · rw [List.concat_eq_append, ← List.append_assoc] at hl
      obtain ⟨h₁, h₂⟩ := List.append_inj' hl rfl
      obtain rfl : e' = e := by simpa using h₂
      obtain ⟨m, hm, hm'⟩ := ih h₁
      rw [List.concat_eq_append]
      exact ⟨m, hm, hm'.snoc hs⟩

end Run

/-! ## Order in a history -/

/-- In the history `tr` there is an event satisfying `Q` with one satisfying `P` before it. -/
def After (P Q : E → Prop) (tr : List E) : Prop :=
  ∃ l e r, tr = l ++ e :: r ∧ Q e ∧ ∃ e' ∈ l, P e'

theorem after_snoc {P Q : E → Prop} {tr : List E} {e : E} :
    After P Q (tr ++ [e]) ↔ After P Q tr ∨ (Q e ∧ ∃ e' ∈ tr, P e') := by
  constructor
  · rintro ⟨l, x, r, htr, hQ, hP⟩
    rcases List.eq_nil_or_concat r with rfl | ⟨r', y, rfl⟩
    · obtain ⟨rfl, hx⟩ := List.append_inj' htr rfl
      obtain rfl : e = x := by simpa using hx
      exact Or.inr ⟨hQ, hP⟩
    · rw [List.concat_eq_append, ← List.cons_append, ← List.append_assoc] at htr
      exact Or.inl ⟨l, x, r', (List.append_inj' htr rfl).1, hQ, hP⟩
  · rintro (⟨l, x, r, rfl, hQ, hP⟩ | ⟨hQ, hP⟩)
    · exact ⟨l, x, r ++ [e], by rw [List.append_assoc, List.cons_append], hQ, hP⟩
    · exact ⟨tr, e, [], rfl, hQ, hP⟩

theorem After.exists_left {P Q : E → Prop} {tr : List E} (h : After P Q tr) : ∃ e ∈ tr, P e := by
  obtain ⟨l, x, r, rfl, -, e, he, hP⟩ := h
  exact ⟨e, List.mem_append_left _ he, hP⟩

/-! ## The way of a run -/

/-- On its way from `s₀` to `s` the run came through a state satisfying `P`. -/
def Through (step : σ → E → σ → Prop) (s₀ : σ) (tr : List E) (s : σ) (P : σ → Prop) : Prop :=
  ∃ tr₁ m tr₂, tr = tr₁ ++ tr₂ ∧ Run step s₀ tr₁ m ∧ P m ∧ Run step m tr₂ s

/-- On its way it took a step between states related by `Q`. -/
def Crossed (step : σ → E → σ → Prop) (s₀ : σ) (tr : List E) (s : σ) (Q : σ → σ → Prop) : Prop :=
  ∃ tr₁ m e m' tr₂, tr = tr₁ ++ e :: tr₂ ∧ Run step s₀ tr₁ m ∧ step m e m' ∧ Q m m' ∧
    Run step m' tr₂ s

section

variable {step : σ → E → σ → Prop} {s₀ s s' : σ} {tr : List E} {e : E} {P : σ → Prop}
  {Q : σ → σ → Prop}

theorem Run.through (h : Run step s₀ tr s) (hs : P s) : Through step s₀ tr s P :=
  ⟨tr, s, [], (List.append_nil _).symm, h, hs, .nil⟩

theorem Through.snoc (h : Through step s₀ tr s P) (hs : step s e s') :
    Through step s₀ (tr ++ [e]) s' P := by
  obtain ⟨tr₁, m, tr₂, rfl, h₁, hm, h₂⟩ := h
  exact ⟨tr₁, m, tr₂ ++ [e], List.append_assoc .., h₁, hm, h₂.snoc hs⟩

theorem Run.crossed (h : Run step s₀ tr s) (hs : step s e s') (hQ : Q s s') :
    Crossed step s₀ (tr ++ [e]) s' Q :=
  ⟨tr, s, e, s', [], rfl, h, hs, hQ, .nil⟩

theorem Crossed.snoc (h : Crossed step s₀ tr s Q) (hs : step s e s') :
    Crossed step s₀ (tr ++ [e]) s' Q := by
  obtain ⟨tr₁, m, e', m', tr₂, rfl, h₁, hm, hQ, h₂⟩ := h
  exact ⟨tr₁, m, e', m', tr₂ ++ [e], by simp, h₁, hm, hQ, h₂.snoc hs⟩

end

/-! ## Deterministic servers

A server answers each call and moves to its next state. That one server implements another is a
relation between their states, kept by every call, under which the answers agree. -/

variable {τ ι ι' α β : Type*}

/-- The answers to a list of calls, in order, and the state after the last. -/
def serve (step : σ → ι → α × σ) : σ → List ι → List α × σ
  | s, [] => ([], s)
  | s, i :: is =>
    ((step s i).1 :: (serve step (step s i).2 is).1, (serve step (step s i).2 is).2)

theorem serve_snoc (step : σ → ι → α × σ) (s : σ) (is : List ι) (i : ι) :
    serve step s (is ++ [i]) =
      ((serve step s is).1 ++ [(step (serve step s is).2 i).1],
        (step (serve step s is).2 i).2) := by
  induction is generalizing s with
  | nil => rfl
  | cons j is ih => rw [List.cons_append, serve, ih, serve, List.cons_append]

/-- **The simulation rule.** The implementation answers a whole run as the specification does, up
to the translations `f` of calls and `g` of answers, if it answers every single call so. -/
theorem serve_simulates {step : σ → ι' → β × σ} {spec : τ → ι → α × τ} {R : σ → τ → Prop}
    {f : ι → ι'} {g : α → β}
    (hstep : ∀ s t i, R s t → (step s (f i)).1 = g (spec t i).1 ∧ R (step s (f i)).2 (spec t i).2)
    {s : σ} {t : τ} (h : R s t) (is : List ι) :
    (serve step s (is.map f)).1 = (serve spec t is).1.map g ∧
      R (serve step s (is.map f)).2 (serve spec t is).2 := by
  induction is generalizing s t with
  | nil => exact ⟨rfl, h⟩
  | cons i is ih =>
    obtain ⟨hans, hR⟩ := hstep s t i h
    obtain ⟨hrest, hR'⟩ := ih hR
    refine ⟨?_, hR'⟩
    rw [List.map_cons, serve, serve, List.map_cons, hans, hrest]

end Semantics
