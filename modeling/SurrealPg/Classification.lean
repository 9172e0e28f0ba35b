import SurrealPg.Error
import Mathlib.Data.List.Basic

/-!
# The class of an error

What an engine decides on an error, it decides on its class: whether the error is transient, and
which variant of `KvsError` it becomes. The class of a server error is its SQLSTATE, and the way
from there goes through a text, since `PgStoreError` keeps a connection exception as a message that
begins in a certain way. The message is recognised again by its beginning alone, whatever the server
has put behind it.
-/

namespace SurrealPg

/-! ## Driver errors -/

namespace SqlxError

/-- A server error of class 08, *connection exception*. -/
def isConnectionException : SqlxError → Bool
  | database (some code) _ => code.startsWith "08"
  | _ => false

/-- The driver errors that are worth a retry: what went wrong on the way, and the server errors
that say so. -/
def IsTransient : SqlxError → Prop
  | poolTimedOut | io _ | tls _ | protocol _ | workerCrashed => True
  | database code _ =>
    ∃ c, code = some c ∧ (c = "40P01" ∨ c = "40001" ∨ c.startsWith "08" = true)
  | poolClosed | other _ => False

/-- The text of an error that `from_sqlx` does not tell apart does not look like the message it
makes of a connection exception. -/
def Distinct (e : SqlxError) : Prop :=
  ∀ display, e = other display → display.startsWith "connection error [08" = false

end SqlxError

/-! ## The message prefix -/

/-- What stands behind a character that the pattern does not have cannot help to match it. -/
theorem prefix_append_cons_iff {α : Type} {p l m : List α} {c : α} (hc : c ∉ p) :
    p <+: l ++ c :: m ↔ p <+: l := by
  constructor
  · intro h
    rcases le_or_gt p.length l.length with hle | hlt
    · exact List.prefix_of_prefix_length_le h (List.prefix_append _ _) hle
    · -- a longer pattern would reach over that character
      have hreach : l ++ [c] <+: p := by
        refine List.prefix_of_prefix_length_le ?_ h (by simpa using Nat.succ_le_of_lt hlt)
        rw [List.prefix_append_right_inj]
        exact List.prefix_append [c] m
      exact absurd (hreach.subset (by simp)) hc
  · exact fun h ↦ h.trans (List.prefix_append _ _)

theorem startsWith_connection_error (code msg : String) :
    (s!"connection error [{code}]: {msg}").startsWith "connection error [08" =
      code.startsWith "08" := by
  have hpat : "connection error [08".toList = "connection error [".toList ++ ['0', '8'] := by
    decide +kernel
  have hcode : "08".toList = ['0', '8'] := rfl
  have hrest : "]: ".toList ++ msg.toList = ']' :: (": ".toList ++ msg.toList) := rfl
  rw [Bool.eq_iff_iff, String.startsWith_string_iff, String.startsWith_string_iff, hpat, hcode]
  simp only [toString, String.toList_append, List.append_assoc, List.prefix_append_right_inj,
    hrest]
  exact prefix_append_cons_iff (by decide)

theorem startsWith_bracket (code msg : String) :
    (s!"[{code}]: {msg}").startsWith "connection error [08" = false := by
  rw [String.startsWith_string_eq_false_iff]
  simp only [toString, String.toList_append]
  intro h
  exact absurd (List.cons_prefix_cons.mp h).1 (by decide)

/-! ## From the driver -/

namespace PgStoreError

theorem fromDatabase_of_ne {key : Option Key} {c : String} (h : c ≠ "23505") (msg : String) :
    fromDatabase key (some c) msg =
      if c.startsWith "08" then postgres s!"connection error [{c}]: {msg}"
      else if c = "40P01" then deadlock msg
      else if c = "40001" then serializationFailure msg
      else postgres s!"[{c}]: {msg}" := by
  rw [fromDatabase.eq_def]
  exact if_neg h

theorem isTransient_fromDatabase (key : Option Key) (code : Option String) (msg : String) :
    (fromDatabase key code msg).isTransient = true ↔
      SqlxError.IsTransient (.database code msg) := by
  rw [SqlxError.IsTransient, fromDatabase.eq_def]
  cases code with
  | none =>
    refine iff_of_false ?_ (by simp)
    dsimp only [Option.getD_none]
    rw [if_neg (by decide), if_neg (by decide +kernel), if_neg (by decide), if_neg (by decide),
      isTransient, startsWith_bracket]
    exact Bool.false_ne_true
  | some c =>
    simp only [Option.getD_some, Option.some.injEq, exists_eq_left']
    split_ifs with hunique hconnection hdeadlock hserialization
    · -- a violated constraint is none of the three
      subst hunique
      refine iff_of_false ?_ (by decide +kernel)
      cases key <;> exact Bool.false_ne_true
    · rw [isTransient, startsWith_connection_error]
      simp [hconnection]
    · simp [isTransient, hdeadlock]
    · simp [isTransient, hserialization]
    · rw [isTransient, startsWith_bracket]
      simp [hconnection, hdeadlock, hserialization]

theorem isTransient_fromSqlx (key : Option Key) {e : SqlxError} (he : e.Distinct) :
    (fromSqlx key e).isTransient = true ↔ e.IsTransient := by
  cases e with
  | database code message => exact isTransient_fromDatabase key code message
  | other display =>
    rw [fromSqlx, isTransient, he display rfl]
    exact iff_of_false Bool.false_ne_true id
  | poolClosed => exact iff_of_false Bool.false_ne_true id
  | poolTimedOut | io | tls | protocol | workerCrashed => exact iff_of_true rfl trivial

end PgStoreError

/-! ## To the engine -/

namespace KvsError

/-- One of the two variants that an engine may retry on. -/
def IsRetryable (e : KvsError) : Prop :=
  (∃ msg, e = connectionFailed msg) ∨ ∃ msg, e = transactionConflict msg

/-- Whether two errors are of the same variant. -/
def sameVariant : KvsError → KvsError → Bool
  | transactionKeyAlreadyExists, transactionKeyAlreadyExists
  | transactionConditionNotMet, transactionConditionNotMet
  | transactionFinished, transactionFinished
  | transactionReadonly, transactionReadonly
  | unsupportedVersionedQueries, unsupportedVersionedQueries
  | transactionConflict _, transactionConflict _
  | connectionFailed _, connectionFailed _
  | transaction _, transaction _ => true
  | _, _ => false

@[simp] theorem sameVariant_self (e : KvsError) : e.sameVariant e = true := by
  cases e <;> rfl

end KvsError

/-- What the documentation says of a driver error on its way to the engine. -/
structure Coherent (key : Option Key) (e : SqlxError) : Prop where
  transient_iff : (PgStoreError.fromSqlx key e).isTransient = true ↔ e.IsTransient
  retryable : (PgStoreError.fromSqlx key e).isTransient = true →
    (KvsError.ofPgStoreError (.fromSqlx key e)).IsRetryable
  connection : e.isConnectionException = true →
    ∃ msg, KvsError.ofPgStoreError (.fromSqlx key e) = .connectionFailed msg

/-- A connection exception reaches the engine as an error of the transaction. -/
theorem ofPgStoreError_of_isConnectionException (key : Option Key) {e : SqlxError}
    (he : e.isConnectionException = true) :
    ∃ msg, KvsError.ofPgStoreError (.fromSqlx key e) = .transaction msg := by
  cases e with
  | database code message =>
    cases code with
    | none => exact absurd he Bool.false_ne_true
    | some c =>
      have hc : c.startsWith "08" = true := he
      have hne : c ≠ "23505" := by
        rintro rfl
        exact absurd hc (by decide +kernel)
      refine ⟨s!"connection error [{c}]: {message}", ?_⟩
      rw [PgStoreError.fromSqlx, PgStoreError.fromDatabase_of_ne hne, if_pos hc]
      rfl
  | _ => exact absurd he Bool.false_ne_true

/-- A transient error of the server that is not a connection exception is a conflict. -/
theorem isRetryable_of_isTransient (key : Option Key) {e : SqlxError} (h : e.IsTransient)
    (he : e.isConnectionException = false) :
    (KvsError.ofPgStoreError (.fromSqlx key e)).IsRetryable := by
  cases e with
  | database code message =>
    obtain ⟨c, rfl, rfl | rfl | hc⟩ := h
    · refine Or.inr ⟨message, ?_⟩
      rw [PgStoreError.fromSqlx, PgStoreError.fromDatabase_of_ne (by decide),
        if_neg (by decide +kernel), if_pos rfl]
      rfl
    · refine Or.inr ⟨message, ?_⟩
      rw [PgStoreError.fromSqlx, PgStoreError.fromDatabase_of_ne (by decide),
        if_neg (by decide +kernel), if_neg (by decide), if_pos rfl]
      rfl
    · exact absurd (hc.symm.trans he) Bool.true_eq_false.mp
  | poolTimedOut | io | tls | protocol | workerCrashed => exact Or.inl ⟨_, rfl⟩
  | poolClosed | other => exact h.elim

/-- **Driver errors are classified coherently**, except the connection exceptions: they are
transient, and the engine is told otherwise. -/
theorem coherent_iff (key : Option Key) {e : SqlxError} (hdistinct : e.Distinct) :
    Coherent key e ↔ e.isConnectionException = false := by
  constructor
  · intro h
    rw [← Bool.not_eq_true]
    intro he
    obtain ⟨msg, hmsg⟩ := h.connection he
    obtain ⟨msg', hmsg'⟩ := ofPgStoreError_of_isConnectionException key he
    exact nomatch hmsg.symm.trans hmsg'
  · intro he
    have htransient := PgStoreError.isTransient_fromSqlx key hdistinct
    refine ⟨htransient, fun h ↦ ?_, fun h ↦ ?_⟩
    · exact isRetryable_of_isTransient key (htransient.mp h) he
    · exact absurd (h.symm.trans he) Bool.true_eq_false.mp

/-- A deadlock. -/
theorem coherent_deadlock : Coherent none (.database (some "40P01") "deadlock detected") :=
  (coherent_iff none (e := .database (some "40P01") "deadlock detected") fun _ h ↦ nomatch h).mpr
    (by decide +kernel)

/-- A connection failure that the server reports. -/
theorem not_coherent : ¬∀ key e, SqlxError.Distinct e → Coherent key e := by
  intro hlaw
  have h := hlaw none (.database (some "08006") "connection failure") fun _ h ↦ nomatch h
  obtain ⟨msg, hmsg⟩ := h.connection (by decide +kernel)
  have hcode : KvsError.ofPgStoreError
      (.fromSqlx none (.database (some "08006") "connection failure")) =
      .transaction "connection error [08006]: connection failure" := by
    decide +kernel
  exact nomatch hmsg.symm.trans hcode

end SurrealPg
