import SurrealPg.Semantics.Typestate

/-!
# Loops that need not end

A dialogue is finite. A program that goes on for ever is a loop: its body is a dialogue that ends a
round either with the variables of the next one or with a result. The loop lives in a memory that
others change as well, and it may be abandoned at the await points of its body.

The typestate rule carries over with one case more, the turn from the end of a round to the
beginning of the next. Since a loop has no size, what bounds it is a measure of its phases: as long
as every event of a kind lowers it, there are no more events of that kind than the measure says.
-/

namespace Semantics

variable {L Q E : Type} {R : Q → Type} {U α σ Φ : Type}

/-- How a round of a loop ends. -/
inductive Flow (L α : Type)
  | again (l : L)
  | exit (a : α)

/-- A round of a loop with variables `L`. -/
abbrev Body (L Q : Type) (R : Q → Type) (U α : Type) := L → Dialogue Q R U (Flow L α)

inductive LoopEvent (E Q : Type) (R : Q → Type)
  | answered (q : Q) (r : R q)
  /-- The next round begins. -/
  | turned
  | abandoned (q : Q)
  /-- Others have changed the memory. -/
  | ambient (e : E)

/-- Whether it is the loop that has done something. -/
def LoopEvent.own : LoopEvent E Q R → Bool
  | answered .. | turned | abandoned _ => true
  | ambient _ => false

/-- A loop in the round that it began with the variables recorded, and the memory it lives in. -/
structure Looping (L Q : Type) (R : Q → Type) (U α σ : Type) where
  mem : σ
  task : Task L (Dialogue Q R U (Flow L α))

namespace Looping

/-- The loop before its first round. -/
def start (body : Body L Q R U α) (l : L) (s : σ) : Looping L Q R U α σ := ⟨s, .live l (body l)⟩

inductive Step (S : Server Unit Q R U σ) (ambient : σ → E → σ → Prop) (body : Body L Q R U α) :
    Looping L Q R U α σ → LoopEvent E Q R → Looping L Q R U α σ → Prop
  | answer {s s' : σ} {l : L} {q : Q} {u : Option U} {next : R q → Dialogue Q R U (Flow L α)}
      {r : R q} : S.answer () s q r s' →
      Step S ambient body ⟨s, .live l (.ask q u next)⟩ (.answered q r) ⟨s', .live l (next r)⟩
  | turn {s : σ} {l l' : L} :
      Step S ambient body ⟨s, .live l (.done (.again l'))⟩ .turned ⟨s, .live l' (body l')⟩
  | abandon {s s' : σ} {l : L} {q : Q} {u : U} {next : R q → Dialogue Q R U (Flow L α)} :
      S.unwind () s u s' →
      Step S ambient body ⟨s, .live l (.ask q (some u) next)⟩ (.abandoned q) ⟨s', .dropped l⟩
  | ambient {s s' : σ} {t : Task L (Dialogue Q R U (Flow L α))} {e : E} : ambient s e s' →
      Step S ambient body ⟨s, t⟩ (.ambient e) ⟨s', t⟩

/-- The loop has been left, by its own exit or by being abandoned. -/
def Ended (p : Looping L Q R U α σ) : Prop :=
  match p.task with
  | .live _ d => ∃ a, d = .done (.exit a)
  | .dropped _ => True

/-- The loop is in the phase given for it, and follows the typestate from there. -/
def Follows (T : Typestate L Q R U (Flow L α) Φ) (p : Looping L Q R U α σ) (t : Task L Φ) : Prop :=
  match p.task with
  | .live l d => ∃ φ, t = .live l φ ∧ d.Follows (T.may l) T.next (T.ends l) φ
  | .dropped l => t = .dropped l

end Looping

/-! ## The rule -/

section Rule

variable {S : Server Unit Q R U σ} {ambient : σ → E → σ → Prop} {body : Body L Q R U α}
  {T : Typestate L Q R U (Flow L α) Φ} {I : List (LoopEvent E Q R) → σ → Task L Φ → Prop}

/-- What has to be checked, phase by phase, for `I` to be an invariant of a loop. -/
structure Typestate.Turns (T : Typestate L Q R U (Flow L α) Φ) (S : Server Unit Q R U σ)
    (ambient : σ → E → σ → Prop) (I : List (LoopEvent E Q R) → σ → Task L Φ → Prop) : Prop where
  answer : ∀ {tr s l φ q u r s'}, I tr s (.live l φ) → T.may l φ q u → S.answer () s q r s' →
    ∃ φ', T.next φ q r = some φ' ∧ I (tr ++ [.answered q r]) s' (.live l φ')
  turn : ∀ {tr s l φ l'}, I tr s (.live l φ) → T.ends l φ (.again l') →
    I (tr ++ [.turned]) s (.live l' (T.start l'))
  abandon : ∀ {tr s l φ q u s'}, I tr s (.live l φ) → T.may l φ q (some u) →
    S.unwind () s u s' → I (tr ++ [.abandoned q]) s' (.dropped l)
  ambient : ∀ {tr s t e s'}, I tr s t → ambient s e s' → I (tr ++ [.ambient e]) s' t

/-- **The loop rule.** When the body follows the typestate and the phases keep `I`, then `I` holds
at every point of every run, for the phase the loop is really in. -/
theorem Typestate.Turns.run_from (hturns : T.Turns S ambient I)
    (hbody : ∀ l, (body l).Follows (T.may l) T.next (T.ends l) (T.start l))
    {p₀ p : Looping L Q R U α σ} {t₀ : Task L Φ} {tr : List (LoopEvent E Q R)}
    (h₀ : I [] p₀.mem t₀) (hf₀ : p₀.Follows T t₀)
    (h : Run (Looping.Step S ambient body) p₀ tr p) : ∃ t, I tr p.mem t ∧ p.Follows T t := by
  refine h.invariant (I := fun tr p ↦ ∃ t, I tr p.mem t ∧ p.Follows T t) ⟨t₀, h₀, hf₀⟩ ?_
  rintro tr p e p' ⟨t, hI, hf⟩ hstep
  cases hstep with
  | answer hans =>
    obtain ⟨φ, rfl, hmay, hnext⟩ := hf
    obtain ⟨φ', hφ', hI'⟩ := hturns.answer hI hmay hans
    exact ⟨_, hI', φ', rfl, hnext _ φ' hφ'⟩
  | @turn s l l' =>
    obtain ⟨φ, rfl, hends⟩ := hf
    exact ⟨_, hturns.turn hI hends, T.start l', rfl, hbody l'⟩
  | abandon hun =>
    obtain ⟨φ, rfl, hmay, -⟩ := hf
    exact ⟨_, hturns.abandon hI hmay hun, rfl⟩
  | ambient hamb => exact ⟨t, hturns.ambient hI hamb, hf⟩

theorem Typestate.Turns.run (hturns : T.Turns S ambient I)
    (hbody : ∀ l, (body l).Follows (T.may l) T.next (T.ends l) (T.start l)) {l₀ : L} {s₀ : σ}
    {p : Looping L Q R U α σ} {tr : List (LoopEvent E Q R)} (h₀ : I [] s₀ (.live l₀ (T.start l₀)))
    (h : Run (Looping.Step S ambient body) (.start body l₀ s₀) tr p) :
    ∃ t, I tr p.mem t ∧ p.Follows T t := by
  have hfollows : (Looping.start body l₀ s₀).Follows T (.live l₀ (T.start l₀)) :=
    ⟨T.start l₀, rfl, hbody l₀⟩
  exact hturns.run_from hbody h₀ hfollows h

/-! ## Bounds -/

/-- What has to be checked for the events satisfying `P` to be few: under `K`, which everybody
keeps, a step of the loop lowers the measure of its phase by one if its event satisfies `P`, and
never raises it. -/
structure Typestate.Dwindles (T : Typestate L Q R U (Flow L α) Φ) (S : Server Unit Q R U σ)
    (ambient : σ → E → σ → Prop) (K : σ → Prop) (P : LoopEvent E Q R → Bool) (m : Φ → ℕ) :
    Prop where
  answer : ∀ {s l φ q u r s'}, K s → T.may l φ q u → S.answer () s q r s' →
    K s' ∧ ∃ φ', T.next φ q r = some φ' ∧ m φ' + (P (.answered q r)).toNat ≤ m φ
  turn : ∀ {l φ l'}, T.ends l φ (.again l') → m (T.start l') + (P .turned).toNat ≤ m φ
  abandon : ∀ {s l φ q u s'}, K s → T.may l φ q (some u) → S.unwind () s u s' →
    K s' ∧ (P (.abandoned q)).toNat ≤ m φ
  ambient : ∀ {s e s'}, K s → ambient s e s' → K s'
  not_ambient : ∀ e, P (.ambient e) = false

/-- The measure of a loop; nothing is left of one that was abandoned. -/
def Task.measure (m : Φ → ℕ) : Task L Φ → ℕ
  | .live _ φ => m φ
  | .dropped _ => 0

/-- **The bound.** The events satisfying `P` that are still to come are no more than the measure of
the phase that the loop is in, less that of the phase it comes to. -/
theorem Typestate.Dwindles.run_from {K : σ → Prop} {P : LoopEvent E Q R → Bool} {m : Φ → ℕ}
    (hd : T.Dwindles S ambient K P m)
    (hbody : ∀ l, (body l).Follows (T.may l) T.next (T.ends l) (T.start l))
    {p₀ p : Looping L Q R U α σ} {t₀ : Task L Φ} {tr : List (LoopEvent E Q R)} (h₀ : K p₀.mem)
    (hf₀ : p₀.Follows T t₀) (h : Run (Looping.Step S ambient body) p₀ tr p) :
    ∃ t, (K p.mem ∧ tr.countP P + t.measure m ≤ t₀.measure m) ∧ p.Follows T t := by
  have hturns : T.Turns S ambient fun tr s t ↦
      K s ∧ tr.countP P + t.measure m ≤ t₀.measure m := by
    refine ⟨?_, ?_, ?_, ?_⟩
    · rintro tr s l φ q u r s' ⟨hK, hle⟩ hmay hans
      obtain ⟨hK', φ', hφ', hlt⟩ := hd.answer hK hmay hans
      refine ⟨φ', hφ', hK', ?_⟩
      simp only [countP_snoc, Task.measure] at hle ⊢
      omega
    · rintro tr s l φ l' ⟨hK, hle⟩ hends
      have hlt := hd.turn hends
      refine ⟨hK, ?_⟩
      simp only [countP_snoc, Task.measure] at hle ⊢
      omega
    · rintro tr s l φ q u s' ⟨hK, hle⟩ hmay hun
      obtain ⟨hK', hlt⟩ := hd.abandon hK hmay hun
      refine ⟨hK', ?_⟩
      simp only [countP_snoc, Task.measure] at hle ⊢
      omega
    · rintro tr s t e s' ⟨hK, hle⟩ hamb
      refine ⟨hd.ambient hK hamb, ?_⟩
      rwa [countP_snoc, hd.not_ambient]
  exact hturns.run_from hbody ⟨h₀, Nat.le_of_eq (Nat.zero_add _)⟩ hf₀ h

end Rule

end Semantics
