import SurrealPg.Semantics.Pool

/-!
# Typestates

A typestate says, phase by phase, what a program may ask for and what phase each answer takes it
to. A program that follows a typestate can be replaced by its phase: whatever holds of all
interleavings of phases that ask only what they may holds of all interleavings of the programs.
The rule at the end makes this replacement once, so that a proof about a pool never looks at a
program again.

An answer for which a typestate names no phase is one the rest of the system never gives; the
invariant of the pool has to say so.
-/

namespace Semantics

/-- Phases `Φ` of the calls `C`, with what each phase may ask for (and leave behind), where an
answer leads, and what may be returned. -/
structure Typestate (C Q : Type) (R : Q → Type) (U α Φ : Type) where
  start : C → Φ
  may : C → Φ → Q → Option U → Prop
  next : Φ → (q : Q) → R q → Option Φ
  ends : C → Φ → α → Prop

namespace Dialogue

variable {C Q Q' : Type} {R : Q → Type} {R' : Q' → Type} {U U' α β γ Φ : Type}

/-- The program asks only what `may` allows, moves by `next`, and returns as `post` allows. -/
def Follows (may : Φ → Q → Option U → Prop) (next : Φ → (q : Q) → R q → Option Φ)
    (post : Φ → α → Prop) : Φ → Dialogue Q R U α → Prop
  | φ, done a => post φ a
  | φ, ask q u k => may φ q u ∧ ∀ r φ', next φ q r = some φ' → (k r).Follows may next post φ'

variable {may : Φ → Q → Option U → Prop} {next : Φ → (q : Q) → R q → Option Φ}
  {post : Φ → α → Prop} {φ : Φ}

theorem Follows.mono {post' : Φ → α → Prop} {d : Dialogue Q R U α}
    (h : d.Follows may next post φ) (hpost : ∀ φ a, post φ a → post' φ a) :
    d.Follows may next post' φ := by
  induction d generalizing φ with
  | done a => exact hpost φ a h
  | ask q u k ih => exact ⟨h.1, fun r φ' hr ↦ ih r (h.2 r φ' hr)⟩

theorem Follows.bind {post' : Φ → β → Prop} {d : Dialogue Q R U α}
    {f : α → Dialogue Q R U β} (h : d.Follows may next post φ)
    (hf : ∀ φ a, post φ a → (f a).Follows may next post' φ) :
    (d >>= f).Follows may next post' φ := by
  induction d generalizing φ with
  | done a => exact hf φ a h
  | ask q u k ih => exact ⟨h.1, fun r φ' hr ↦ ih r (h.2 r φ' hr)⟩

theorem Follows.map {f : α → β} {post' : Φ → β → Prop} {d : Dialogue Q R U α}
    (h : d.Follows may next (fun φ a ↦ post' φ (f a)) φ) :
    (f <$> d).Follows may next post' φ := by
  rw [← bind_pure_comp]
  exact h.bind fun φ a ha ↦ ha

theorem Follows.sim {Φ' : Type} {may' : Φ' → Q → Option U → Prop}
    {next' : Φ' → (q : Q) → R q → Option Φ'} {post' : Φ' → α → Prop} {ρ : Φ → Φ' → Prop}
    (hmay : ∀ φ ψ q u, ρ φ ψ → may φ q u → may' ψ q u)
    (hnext : ∀ φ ψ q u r ψ', ρ φ ψ → may φ q u → next' ψ q r = some ψ' →
      ∃ φ', next φ q r = some φ' ∧ ρ φ' ψ')
    (hpost : ∀ φ ψ a, ρ φ ψ → post φ a → post' ψ a) {ψ : Φ'} {d : Dialogue Q R U α}
    (hrel : ρ φ ψ) (h : d.Follows may next post φ) : d.Follows may' next' post' ψ := by
  induction d generalizing φ ψ with
  | done a => exact hpost φ ψ a hrel h
  | ask q u k ih =>
    refine ⟨hmay φ ψ q u hrel h.1, fun r ψ' hr ↦ ?_⟩
    obtain ⟨φ', hφ', hrel'⟩ := hnext φ ψ q u r ψ' hrel h.1 hr
    exact ih r hrel' (h.2 r φ' hφ')

theorem Follows.embed {f : Q' → Q} {g : (q : Q') → R (f q) → R' q} {h : U' → U}
    {p : Q' → Option U' → Prop} {r : α → Prop} {d : Dialogue Q' R' U' α} (hd : d.All p r)
    (hmay : ∀ q u, p q u → may φ (f q) (u.map h))
    (hnext : ∀ q u x, p q u → next φ (f q) x = some φ) :
    (d.embed f g h).Follows may next (fun φ' a ↦ φ' = φ ∧ r a) φ := by
  induction d with
  | done a => exact ⟨rfl, hd⟩
  | ask q u k ih =>
    refine ⟨hmay q u hd.1, fun x φ' hx ↦ ?_⟩
    obtain rfl : φ = φ' := Option.some.inj ((hnext q u x hd.1).symm.trans hx)
    exact ih _ (hd.2 _)

/-- What is known of every request may be asked of the phases as well. -/
theorem Follows.and_all {p : Q → Option U → Prop} {r : α → Prop} {d : Dialogue Q R U α}
    (h : d.Follows may next post φ) (hall : d.All p r) :
    d.Follows (fun φ q u ↦ may φ q u ∧ p q u) next post φ := by
  induction d generalizing φ with
  | done a => exact h
  | ask q u k ih => exact ⟨⟨h.1, hall.1⟩, fun x φ' hx ↦ ih x (h.2 x φ' hx) (hall.2 x)⟩

/-- A program embedded into a larger vocabulary follows its phases there. -/
theorem Follows.embed_phase {Ψ : Type} {f : Q → Q'} {g : (q : Q) → R' (f q) → R q} {h : U → U'}
    {may' : Ψ → Q' → Option U' → Prop} {next' : Ψ → (q : Q') → R' q → Option Ψ} {ρ : Φ → Ψ}
    {d : Dialogue Q R U α} (hd : d.Follows may next post φ)
    (hmay : ∀ φ q u, may φ q u → may' (ρ φ) (f q) (u.map h))
    (hnext : ∀ φ q x ψ, next' (ρ φ) (f q) x = some ψ →
      ∃ φ', next φ q (g q x) = some φ' ∧ ρ φ' = ψ) :
    (d.embed f g h).Follows may' next' (fun ψ a ↦ ∃ φ', ρ φ' = ψ ∧ post φ' a) (ρ φ) := by
  induction d generalizing φ with
  | done a => exact ⟨φ, rfl, hd⟩
  | ask q u k ih =>
    refine ⟨hmay φ q u hd.1, fun x ψ hx ↦ ?_⟩
    obtain ⟨φ', hφ', rfl⟩ := hnext φ q x ψ hx
    exact ih _ (hd.2 _ φ' hφ')

/-- Run alone, a program takes the state through the phases. What is known of the requests besides
may be used for each of them. -/
theorem Follows.eval_invariant {σ : Type} {answer : σ → (q : Q) → R q × σ}
    {p : Q → Option U → Prop} {J : Φ → σ → Prop} {d : Dialogue Q R U α}
    (h : d.Follows may next post φ) (hall : d.All p fun _ ↦ True)
    (hJ : ∀ φ s q u, may φ q u → p q u → J φ s →
      ∃ φ', next φ q (answer s q).1 = some φ' ∧ J φ' (answer s q).2) {s : σ} (hs : J φ s) :
    ∃ φ', post φ' (d.eval answer s).1 ∧ J φ' (d.eval answer s).2 := by
  induction d generalizing φ s with
  | done a => exact ⟨φ, h, hs⟩
  | ask q u k ih =>
    obtain ⟨φ', hφ', hs'⟩ := hJ φ s q u h.1 hall.1 hs
    exact ih _ (h.2 _ φ' hφ') (hall.2 _) hs'

end Dialogue

/-! ## Replacing the programs of a pool by their phases -/

section Pool

variable {ι C Q : Type} {R : Q → Type} {U α σ Φ : Type} [DecidableEq ι]

/-- The phases of the calls of a pool. -/
abbrev Phases (ι C Φ : Type) := ι → Option (Task C Φ)

/-- Every call of the pool is in the phase given for it, and follows the typestate from there. -/
def Pool.Follows (T : Typestate C Q R U α Φ) (p : Pool ι C Q R U α σ) (ph : Phases ι C Φ) :
    Prop :=
  ∀ i, match p.task i with
    | none => ph i = none
    | some (.live c d) => ∃ φ, ph i = some (.live c φ) ∧ d.Follows (T.may c) T.next (T.ends c) φ
    | some (.dropped c) => ph i = some (.dropped c)

/-- What has to be checked, phase by phase, for `I` to be an invariant. -/
structure Typestate.Keeps (T : Typestate C Q R U α Φ) (S : Server ι Q R U σ)
    (I : List (PoolEvent ι C Q R) → σ → Phases ι C Φ → Prop) : Prop where
  call : ∀ {tr s ph i} (c : C), I tr s ph → ph i = none →
    I (tr ++ [.called i c]) s (Function.update ph i (some (.live c (T.start c))))
  answer : ∀ {tr s ph i c φ q u r s'}, I tr s ph → ph i = some (.live c φ) → T.may c φ q u →
    S.answer i s q r s' → ∃ φ', T.next φ q r = some φ' ∧
      I (tr ++ [.answered i q r]) s' (Function.update ph i (some (.live c φ')))
  abandon : ∀ {tr s ph i c φ q u s'}, I tr s ph → ph i = some (.live c φ) →
    T.may c φ q (some u) → S.unwind i s u s' →
      I (tr ++ [.abandoned i q]) s' (Function.update ph i (some (.dropped c)))

theorem Pool.Follows.advance {T : Typestate C Q R U α Φ} {p : Pool ι C Q R U α σ}
    {ph : Phases ι C Φ} (h : p.Follows T ph) (i : ι) {t : Task C (Dialogue Q R U α)}
    {t' : Task C Φ} (s : σ)
    (ht : match t with
      | .live c d => ∃ φ, t' = .live c φ ∧ d.Follows (T.may c) T.next (T.ends c) φ
      | .dropped c => t' = .dropped c) :
    (p.advance i t s).Follows T (Function.update ph i (some t')) := by
  intro j
  by_cases hj : j = i
  · subst hj
    rw [advance_task_self, Function.update_self]
    cases t with
    | live c d =>
      obtain ⟨φ, rfl, hd⟩ := ht
      exact ⟨φ, rfl, hd⟩
    | dropped c => exact congrArg some ht
  · rw [advance_task_of_ne _ _ _ hj, Function.update_of_ne hj]
    exact h j

/-- **The typestate rule.** When every program follows the typestate and the phases keep `I`, then
`I` holds at every point of every run, for the phases the calls are really in. -/
theorem Typestate.Keeps.run_from {T : Typestate C Q R U α Φ} {S : Server ι Q R U σ}
    {I : List (PoolEvent ι C Q R) → σ → Phases ι C Φ → Prop} {code : C → Dialogue Q R U α}
    {p₀ p : Pool ι C Q R U α σ} {tr : List (PoolEvent ι C Q R)} {ph₀ : Phases ι C Φ}
    (hkeeps : T.Keeps S I)
    (hcode : ∀ c, (code c).Follows (T.may c) T.next (T.ends c) (T.start c))
    (h₀ : I [] p₀.mem ph₀) (hf₀ : p₀.Follows T ph₀) (h : Run (Pool.Step S code) p₀ tr p) :
    ∃ ph, I tr p.mem ph ∧ p.Follows T ph := by
  refine h.invariant (I := fun tr p ↦ ∃ ph, I tr p.mem ph ∧ p.Follows T ph) ⟨ph₀, h₀, hf₀⟩ ?_
  rintro tr p e p' ⟨ph, hI, hf⟩ (⟨i, c, hi⟩ | ⟨i, q, r, hi, hans⟩ | ⟨i, q, hi, hun⟩)
  · have hph := hf i
    rw [hi] at hph
    exact ⟨_, hkeeps.call c hI hph, hf.advance i _ ⟨T.start c, rfl, hcode c⟩⟩
  · have hph := hf i
    rw [hi] at hph
    obtain ⟨φ, hφ, hmay, hnext⟩ := hph
    obtain ⟨φ', hφ', hI'⟩ := hkeeps.answer hI hφ hmay hans
    exact ⟨_, hI', hf.advance i _ ⟨φ', rfl, hnext r φ' hφ'⟩⟩
  · have hph := hf i
    rw [hi] at hph
    obtain ⟨φ, hφ, hmay, -⟩ := hph
    exact ⟨_, hkeeps.abandon hI hφ hmay hun, hf.advance i _ rfl⟩

theorem Typestate.Keeps.run {T : Typestate C Q R U α Φ} {S : Server ι Q R U σ}
    {I : List (PoolEvent ι C Q R) → σ → Phases ι C Φ → Prop} {code : C → Dialogue Q R U α}
    {s₀ : σ} {tr : List (PoolEvent ι C Q R)} {p : Pool ι C Q R U α σ} (hkeeps : T.Keeps S I)
    (hcode : ∀ c, (code c).Follows (T.may c) T.next (T.ends c) (T.start c))
    (h₀ : I [] s₀ fun _ ↦ none) (h : Run (Pool.Step S code) (Pool.start s₀) tr p) :
    ∃ ph, I tr p.mem ph ∧ p.Follows T ph :=
  hkeeps.run_from hcode h₀ (fun _ ↦ rfl) h

omit [DecidableEq ι] in
theorem Pool.Follows.live {T : Typestate C Q R U α Φ} {p : Pool ι C Q R U α σ}
    {ph : Phases ι C Φ} (h : p.Follows T ph) {i : ι} {c : C} {d : Dialogue Q R U α}
    (hi : p.task i = some (.live c d)) :
    ∃ φ, ph i = some (.live c φ) ∧ d.Follows (T.may c) T.next (T.ends c) φ := by
  have hfollows := h i
  rwa [hi] at hfollows

end Pool

end Semantics
