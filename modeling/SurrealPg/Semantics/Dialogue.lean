import Mathlib.Logic.Function.Basic

/-!
# Client programs as dialogues

A program that talks to something outside itself (a database connection, a mutex, an atomic
counter) is presented as data: either it has finished, or it is waiting for the answer to one
request and knows how to go on from every possible answer. One presentation then serves every
reading of the program: run alone against a deterministic answerer (`eval`), interleaved with
other programs over a shared memory (`Pool`), or judged request by request (`All`).

Each request may carry a note describing what is left behind when the program is abandoned while
it waits there. A note marks an await point; a request without one completes synchronously.
-/

namespace Semantics

/-- A program sending requests `q : Q`, answered in `R q`, and finally returning an `α`. The note
`unwind`, where there is one, says what abandoning the program at this request leaves behind. -/
inductive Dialogue (Q : Type) (R : Q → Type) (U α : Type) : Type
  | done (a : α)
  | ask (q : Q) (unwind : Option U) (next : R q → Dialogue Q R U α)

namespace Dialogue

variable {Q Q' : Type} {R : Q → Type} {R' : Q' → Type} {U U' α β γ σ : Type}

/-! ## Sequencing -/

protected def bind : Dialogue Q R U α → (α → Dialogue Q R U β) → Dialogue Q R U β
  | done a, f => f a
  | ask q u next, f => ask q u fun r ↦ (next r).bind f

instance : Monad (Dialogue Q R U) where
  pure := done
  bind := Dialogue.bind

@[simp] theorem pure_eq_done (a : α) : (pure a : Dialogue Q R U α) = done a := rfl

@[simp] theorem done_bind (a : α) (f : α → Dialogue Q R U β) : done a >>= f = f a := rfl

@[simp] theorem ask_bind (q : Q) (u : Option U) (next : R q → Dialogue Q R U α)
    (f : α → Dialogue Q R U β) : ask q u next >>= f = ask q u fun r ↦ next r >>= f := rfl

theorem bind_done (d : Dialogue Q R U α) : d >>= done = d := by
  induction d with
  | done a => rfl
  | ask q u next ih => rw [ask_bind]; exact congrArg _ (funext ih)

theorem bind_assoc (d : Dialogue Q R U α) (f : α → Dialogue Q R U β)
    (g : β → Dialogue Q R U γ) : d >>= f >>= g = d >>= fun a ↦ f a >>= g := by
  induction d with
  | done a => rfl
  | ask q u next ih => rw [ask_bind, ask_bind, ask_bind]; exact congrArg _ (funext ih)

instance : LawfulMonad (Dialogue Q R U) :=
  LawfulMonad.mk' _ bind_done (fun _ _ ↦ rfl) bind_assoc

/-- The one-request program that returns the answer. -/
def request (q : Q) (u : Option U) : Dialogue Q R U (R q) := ask q u done

def isDone : Dialogue Q R U α → Bool
  | done _ => true
  | ask .. => false

/-! ## Running alone -/

/-- Run against a deterministic answerer that threads its own state. -/
def eval (answer : σ → (q : Q) → R q × σ) : Dialogue Q R U α → σ → α × σ
  | done a, s => (a, s)
  | ask q _ next, s => (next (answer s q).1).eval answer (answer s q).2

variable {answer : σ → (q : Q) → R q × σ}

@[simp] theorem eval_done (a : α) (s : σ) :
    (done a : Dialogue Q R U α).eval answer s = (a, s) := rfl

@[simp] theorem eval_ask (q : Q) (u : Option U) (next : R q → Dialogue Q R U α) (s : σ) :
    (ask q u next).eval answer s = (next (answer s q).1).eval answer (answer s q).2 := rfl

theorem eval_bind (d : Dialogue Q R U α) (f : α → Dialogue Q R U β) (s : σ) :
    (d >>= f).eval answer s = (f (d.eval answer s).1).eval answer (d.eval answer s).2 := by
  induction d generalizing s with
  | done a => rfl
  | ask q u next ih => rw [ask_bind, eval_ask, ih, eval_ask]

theorem eval_map (d : Dialogue Q R U α) (f : α → β) (s : σ) :
    (f <$> d).eval answer s = (f (d.eval answer s).1, (d.eval answer s).2) := by
  rw [← bind_pure_comp, eval_bind, pure_eq_done, eval_done]

/-- The requests of such a run, in order. -/
def asked (answer : σ → (q : Q) → R q × σ) : Dialogue Q R U α → σ → List Q
  | done _, _ => []
  | ask q _ next, s => q :: (next (answer s q).1).asked answer (answer s q).2

theorem asked_bind (d : Dialogue Q R U α) (f : α → Dialogue Q R U β) (s : σ) :
    (d >>= f).asked answer s =
      d.asked answer s ++ (f (d.eval answer s).1).asked answer (d.eval answer s).2 := by
  induction d generalizing s with
  | done a => rfl
  | ask q u next ih => rw [ask_bind, asked, asked, eval_ask, ih, List.cons_append]

/-! ## Judging every request -/

/-- Every request satisfies `p` and every result satisfies `r`, whatever the answers. -/
def All (p : Q → Option U → Prop) (r : α → Prop) : Dialogue Q R U α → Prop
  | done a => r a
  | ask q u next => p q u ∧ ∀ x, (next x).All p r

variable {p : Q → Option U → Prop}

theorem All.bind {r : α → Prop} {r' : β → Prop} {d : Dialogue Q R U α}
    {f : α → Dialogue Q R U β} (h : d.All p r) (hf : ∀ a, r a → (f a).All p r') :
    (d >>= f).All p r' := by
  induction d with
  | done a => exact hf a h
  | ask q u next ih => exact ⟨h.1, fun x ↦ ih x (h.2 x)⟩

theorem All.map {f : α → β} {r : β → Prop} {d : Dialogue Q R U α}
    (h : d.All p fun a ↦ r (f a)) : (f <$> d).All p r := by
  rw [← bind_pure_comp]
  exact h.bind fun a ha ↦ ha

theorem All.mono {r r' : α → Prop} {p' : Q → Option U → Prop} {d : Dialogue Q R U α}
    (h : d.All p r) (hp : ∀ q u, p q u → p' q u) (hr : ∀ a, r a → r' a) : d.All p' r' := by
  induction d with
  | done a => exact hr a h
  | ask q u next ih => exact ⟨hp q u h.1, fun x ↦ ih x (h.2 x)⟩

/-- A state property kept by every answer to an allowed request is kept by the whole run. -/
theorem All.eval_invariant {r : α → Prop} {I : σ → Prop} {d : Dialogue Q R U α}
    (h : d.All p r) (hI : ∀ s q u, p q u → I s → I (answer s q).2) {s : σ} (hs : I s) :
    I (d.eval answer s).2 := by
  induction d generalizing s with
  | done a => exact hs
  | ask q u next ih => exact ih _ (h.2 _) (hI s q u h.1 hs)

/-! ## Embedding into a larger vocabulary -/

/-- Send each request under another name, translating the answers back and the notes across. -/
def embed (f : Q → Q') (g : (q : Q) → R' (f q) → R q) (h : U → U') :
    Dialogue Q R U α → Dialogue Q' R' U' α
  | done a => done a
  | ask q u next => ask (f q) (u.map h) fun r ↦ (next (g q r)).embed f g h

variable {f : Q → Q'} {g : (q : Q) → R' (f q) → R q} {h : U → U'}

@[simp] theorem embed_ask (q : Q) (u : Option U) (next : R q → Dialogue Q R U α) :
    (ask q u next).embed f g h = ask (f q) (u.map h) fun r ↦ (next (g q r)).embed f g h := rfl

theorem All.embed {r : α → Prop} {p' : Q' → Option U' → Prop} {d : Dialogue Q R U α}
    (hd : d.All p r) (hp : ∀ q u, p q u → p' (f q) (u.map h)) : (d.embed f g h).All p' r := by
  induction d with
  | done a => exact hd
  | ask q u next ih => exact ⟨hp q u hd.1, fun x ↦ ih _ (hd.2 _)⟩

/-- Evaluation of an embedded program, where the larger answerer keeps the smaller one's state in
a place of its own and treats the embedded requests there. -/
theorem eval_embed {σ' : Type} {answer' : σ' → (q : Q') → R' q × σ'} (put : σ → σ')
    (hans : ∀ s q, (g q (answer' (put s) (f q)).1, (answer' (put s) (f q)).2) =
      ((answer s q).1, put (answer s q).2))
    (d : Dialogue Q R U α) (s : σ) :
    (d.embed f g h).eval answer' (put s) = ((d.eval answer s).1, put (d.eval answer s).2) := by
  induction d generalizing s with
  | done a => rfl
  | ask q u next ih =>
    obtain ⟨h₁, h₂⟩ := Prod.mk.inj (hans s q)
    rw [embed_ask, eval_ask, eval_ask, h₂, h₁, ih]

end Dialogue

end Semantics
