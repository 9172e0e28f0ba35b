import SurrealPg.Semantics.Roster
import SurrealPg.Store.Admission

/-!
# From `begin` on

The life of a transaction: the call of `begin`, which may fail or be abandoned, and then whatever
its owner makes of the transaction. The counters are raised on the way out of `begin`, once each,
and the transaction that begins this way is open and untouched. What the owner has, and does, is
left open here (`B`, `body`); a store is a roster of such lives.
-/

namespace SurrealPg

open Semantics

/-- A call of `begin`, and what its owner has from it once it has returned a transaction. -/
inductive Life (B : Type)
  | beginning (write : Bool) (d : StoreAsync (Result PgTransaction))
  | fruitless
  | owned (b : B)

/-- What a life shows. -/
inductive LifeEvent (E : Type)
  /-- `begin` was answered a request. -/
  | asked (q : StoreReq)
  /-- The future of `begin` was dropped at a request. -/
  | abandoned (q : StoreReq)
  | failed
  | returned
  | did (e : E)

namespace LifeEvent

variable {E : Type}

/-- `tx_started.fetch_add(1, ..)` -/
def isStart : LifeEvent E → Bool
  | asked .addStarted => true
  | _ => false

/-- `tx_active.fetch_add(1, ..)` -/
def isRaise : LifeEvent E → Bool
  | asked .addActive => true
  | _ => false

/-- What the owner did. -/
def deed : LifeEvent E → Option E
  | did e => some e
  | _ => none

end LifeEvent

open LifeEvent

namespace Life

variable {B E : Type} {take : Bool → PgTransaction → B} {body : B → E → B → Prop} {s : PgStore}
  {x x' : Life B} {e : LifeEvent E} {h : List (LifeEvent E)}

/-- A step of a life, in which `begin` may be given any answers. -/
inductive Step (take : Bool → PgTransaction → B) (body : B → E → B → Prop) :
    Life B → LifeEvent E → Life B → Prop
  | ask {write : Bool} {q : StoreReq} {u : Option StoreNote}
      {next : q.Answer → StoreAsync (Result PgTransaction)} (r : q.Answer) :
      Step take body (beginning write (.ask q u next)) (asked q) (beginning write (next r))
  | abandon {write : Bool} {q : StoreReq} {u : StoreNote}
      {next : q.Answer → StoreAsync (Result PgTransaction)} :
      Step take body (beginning write (.ask q (some u) next)) (abandoned q) fruitless
  | fail {write : Bool} {err : PgStoreError} :
      Step take body (beginning write (.done (.error err))) failed fruitless
  | «return» {write : Bool} {tx : PgTransaction} :
      Step take body (beginning write (.done (.ok tx))) returned (owned (take write tx))
  | act {b b' : B} {e : E} : body b e b' → Step take body (owned b) (did e) (owned b')

/-- A life starts with a call of `begin`. -/
def New (s : PgStore) (x : Life B) : Prop := ∃ write, x = beginning write (s.begin write)

end Life

/-! ## The counters are raised once -/

namespace BeginPhase

variable {mode : ConnectionMode} {φ φ' : BeginPhase} {q : StoreReq}

/-- The phases after `tx_started` was raised. -/
def isStarted : BeginPhase → Bool
  | started | counted => true
  | _ => false

/-- The phase after `tx_active` was raised. -/
def isCounted : BeginPhase → Bool
  | counted => true
  | _ => false

/-- A call can only be dropped before it has raised a counter. -/
theorem May.uncounted {u : StoreNote} (h : May mode φ q (some u)) :
    φ.isStarted = false ∧ φ.isCounted = false := by
  cases h <;> exact ⟨rfl, rfl⟩

theorem May.counts {E : Type} {u : Option StoreNote} {r : q.Answer} (h : May mode φ q u)
    (hnext : next φ q r = some φ') :
    φ'.isStarted.toNat = φ.isStarted.toNat + (isStart (asked q : LifeEvent E)).toNat ∧
      φ'.isCounted.toNat = φ.isCounted.toNat + (isRaise (asked q : LifeEvent E)).toNat := by
  cases h with
  | look hφ =>
    obtain rfl | rfl := hφ <;> cases r <;> obtain rfl := Option.some.inj hnext <;> exact ⟨rfl, rfl⟩
  | acquire | connect | session | begin =>
    obtain rfl := Option.some.inj hnext
    split_ifs <;> exact ⟨rfl, rfl⟩
  | _ =>
    obtain rfl := Option.some.inj hnext
    exact ⟨rfl, rfl⟩

end BeginPhase

namespace Life

open BeginPhase

variable {B E : Type} {take : Bool → PgTransaction → B} {body : B → E → B → Prop} {s : PgStore}

/-- What the history of a life says about where it is. -/
def Told (s : PgStore) (take : Bool → PgTransaction → B) (body : B → E → B → Prop)
    (h : List (LifeEvent E)) : Life B → Prop
  | beginning write d => ∃ φ, PgStore.Begins s.mode write φ d ∧
      h.countP isStart = φ.isStarted.toNat ∧ h.countP isRaise = φ.isCounted.toNat ∧
        h.filterMap deed = []
  | fruitless => h.countP isStart = 0 ∧ h.countP isRaise = 0 ∧ h.filterMap deed = []
  | owned b => h.countP isStart = 1 ∧ h.countP isRaise = 1 ∧
      ∃ conn write, Run body (take write ⟨some conn, write, 0, []⟩) (h.filterMap deed) b

theorem Told.step {x x' : Life B} {e : LifeEvent E} {h : List (LifeEvent E)}
    (hx : x.Told s take body h) (hstep : Step take body x e x') :
    x'.Told s take body (h ++ [e]) := by
  cases hstep with
  | @ask write q u next r =>
    obtain ⟨φ, ⟨hmay, hnext⟩, hstart, hraise, hdeed⟩ := hx
    -- Every answer leads to a phase.
    obtain ⟨φ', hφ'⟩ : ∃ φ', BeginPhase.next φ q r = some φ' := by
      cases hmay with
      | look hφ => obtain rfl | rfl := hφ <;> exact ⟨_, rfl⟩
      | _ => exact ⟨_, rfl⟩
    obtain ⟨hs, hr⟩ := hmay.counts (E := E) hφ'
    refine ⟨φ', hnext r φ' hφ', ?_, ?_, ?_⟩
    · rw [countP_snoc, hstart, hs]
    · rw [countP_snoc, hraise, hr]
    · rw [List.filterMap_append, hdeed]
      rfl
  | abandon =>
    obtain ⟨φ, ⟨hmay, -⟩, hstart, hraise, hdeed⟩ := hx
    obtain ⟨hs, hr⟩ := hmay.uncounted
    refine ⟨?_, ?_, ?_⟩
    · rw [countP_snoc, hstart, hs]
      rfl
    · rw [countP_snoc, hraise, hr]
      rfl
    · rw [List.filterMap_append, hdeed]
      rfl
  | fail =>
    obtain ⟨φ, hends, hstart, hraise, hdeed⟩ := hx
    refine ⟨?_, ?_, ?_⟩
    · rw [countP_snoc, hstart]
      cases φ <;> first | rfl | exact hends.elim | exact nomatch hends.choose_spec
    · rw [countP_snoc, hraise]
      cases φ <;> first | rfl | exact hends.elim | exact nomatch hends.choose_spec
    · rw [List.filterMap_append, hdeed]
      rfl
  | @«return» write tx =>
    obtain ⟨φ, hends, hstart, hraise, hdeed⟩ := hx
    -- A transaction is returned in one phase only.
    obtain rfl : φ = counted := by
      cases φ <;> first | rfl | exact hends.elim | exact nomatch hends.choose_spec
    obtain ⟨conn, htx⟩ := hends
    obtain rfl := Except.ok.inj htx
    refine ⟨?_, ?_, conn, write, ?_⟩
    · rw [countP_snoc, hstart]
      rfl
    · rw [countP_snoc, hraise]
      rfl
    · rw [List.filterMap_append, hdeed]
      exact .nil
  | act hbody =>
    obtain ⟨hstart, hraise, conn, write, hrun⟩ := hx
    refine ⟨?_, ?_, conn, write, ?_⟩
    · rw [countP_snoc, hstart]
      rfl
    · rw [countP_snoc, hraise]
      rfl
    · rw [List.filterMap_append]
      exact hrun.snoc hbody

/-- **The history of a life tells where it is.** -/
theorem told_of_run {x₀ x : Life B} {h : List (LifeEvent E)} (hnew : New s x₀)
    (hrun : Run (Step take body) x₀ h x) : x.Told s take body h := by
  obtain ⟨write, rfl⟩ := hnew
  refine hrun.invariant (I := fun h x ↦ x.Told s take body h) ?_ fun hx hstep ↦ hx.step hstep
  exact ⟨outside, PgStore.begin_follows s write, rfl, rfl, rfl⟩

theorem run_begin_pooled (write : Bool) : Run (Step take body)
    (beginning write ((PgStore.withDefaults .pooled).begin write))
    [asked .loadShuttingDown, asked .loadShuttingDown, asked .acquire,
      asked (.execute (PgStore.withDefaults .pooled).beginSql), asked .addStarted,
      asked .addActive, returned]
    (owned (take write (.newPooled write))) := by
  have h : Run (Step take body) (beginning write ((PgStore.withDefaults .pooled).begin write))
    [] _ := .nil
  have h := h.snoc (.ask (q := .loadShuttingDown) false)
  have h := h.snoc (.ask (q := .loadShuttingDown) false)
  have h := h.snoc (.ask (q := .acquire) (.ok ()))
  have h := h.snoc (.ask (q := .execute _) (.ok ()))
  have h := h.snoc (.ask (q := .addStarted) ())
  have h := h.snoc (.ask (q := .addActive) ())
  exact h.snoc .return

end Life

end SurrealPg
