import Mathlib.Data.List.Basic

/-!
# PostgreSQL's transaction-block rules

The server side of one connection, over any contents `T` and any data statements `S`. A statement
that errors has no effect and puts the block in the aborted state; in the aborted state everything
but `ROLLBACK`, `COMMIT` and `ROLLBACK TO SAVEPOINT` errors; and `COMMIT` of an aborted block
discards it while reporting success, which is the rule that makes a client's own bookkeeping
matter.

A savepoint name resolves to the most recent savepoint of that name. `RELEASE` destroys it and
everything established after it, `ROLLBACK TO` restores its contents, destroys everything
established after it and keeps it.

Any statement may be refused for a reason of the server's own (a timeout, a lost connection, a
deadlock); such a refusal is an argument of the step, so a sequence of them is a fault pattern.
-/

namespace Postgres

/-- What a client sends inside a block that does not end it. -/
inductive Statement (S : Type)
  | data (s : S)
  | savepoint (name : String)
  | release (name : String)
  | rollbackTo (name : String)
  deriving DecidableEq

/-- What a client sends on a connection. -/
inductive Command (S : Type)
  | run (c : Statement S)
  | commit
  | rollback
  deriving DecidableEq

/-- The data statements of a server, with the errors the block rules raise. -/
structure Engine (T S P E : Type) where
  /-- The effect of a statement on the contents, with its reply. -/
  exec : S → T → Except E (P × T)
  /-- The reply to a command that returns no rows. -/
  ack : P
  /-- `in_failed_sql_transaction`. -/
  inFailed : E
  /-- `no_active_sql_transaction`. -/
  noTransaction : E
  /-- `invalid_savepoint_specification`. -/
  noSavepoint : String → E

/-- An open transaction block. -/
structure Block (T : Type) where
  /-- The committed contents when the block began. -/
  base : T
  /-- The contents the block sees. -/
  cur : T
  /-- The active savepoints with the contents they restore, most recent first. -/
  marks : List (String × T)
  aborted : Bool

/-- A connection: inside a block, or between blocks with the committed contents. -/
inductive Session (T : Type)
  | inBlock (b : Block T)
  | idle (t : T)

variable {T S P E : Type}

/-- The block `BEGIN` opens on the committed contents `t`. -/
def Block.begin (t : T) : Block T := ⟨t, t, [], false⟩

/-- The savepoint a name resolves to, with the older ones under it. -/
def resolve (name : String) : List (String × T) → Option (T × List (String × T))
  | [] => none
  | m :: marks => if m.1 = name then some (m.2, marks) else resolve name marks

@[simp] theorem resolve_cons_self (name : String) (t : T) (marks : List (String × T)) :
    resolve name ((name, t) :: marks) = some (t, marks) := by
  rw [resolve, if_pos rfl]

namespace Block

/-- A statement the server has no reason of its own to refuse. -/
def attempt (G : Engine T S P E) (b : Block T) : Statement S → Except E (P × Block T)
  | .data s =>
    if b.aborted then .error G.inFailed
    else (G.exec s b.cur).map fun r ↦ (r.1, { b with cur := r.2 })
  | .savepoint name =>
    if b.aborted then .error G.inFailed
    else .ok (G.ack, { b with marks := (name, b.cur) :: b.marks })
  | .release name =>
    if b.aborted then .error G.inFailed
    else match resolve name b.marks with
      | none => .error (G.noSavepoint name)
      | some (_, marks) => .ok (G.ack, { b with marks := marks })
  | .rollbackTo name =>
    match resolve name b.marks with
    | none => .error (G.noSavepoint name)
    | some (t, marks) =>
      .ok (G.ack, { b with cur := t, marks := (name, t) :: marks, aborted := false })

/-- A statement inside the block; `fault` is the server's own reason to refuse it, if any. -/
def run (G : Engine T S P E) (fault : Option E) (b : Block T) (c : Statement S) :
    Except E P × Block T :=
  match fault.elim (b.attempt G c) .error with
  | .error e => (.error e, { b with aborted := true })
  | .ok (p, b') => (.ok p, b')

/-- The contents `COMMIT` makes permanent. -/
def outcome (b : Block T) : T := if b.aborted then b.base else b.cur

end Block

/-- A statement between blocks commits by itself; there is no savepoint to name there. -/
def idleRun (G : Engine T S P E) (fault : Option E) (t : T) : Statement S → Except E P × T
  | .data s =>
    match fault.elim (G.exec s t) .error with
    | .error e => (.error e, t)
    | .ok (p, t') => (.ok p, t')
  | .savepoint _ | .release _ | .rollbackTo _ => (.error (fault.getD G.noTransaction), t)

/-- A command on a connection. A refused `COMMIT` or `ROLLBACK` discards the block; between
blocks both only warn. -/
def Session.step (G : Engine T S P E) (fault : Option E) :
    Session T → Command S → Except E P × Session T
  | .inBlock b, .run c => ((b.run G fault c).1, .inBlock (b.run G fault c).2)
  | .inBlock b, .commit => match fault with
    | some e => (.error e, .idle b.base)
    | none => (.ok G.ack, .idle b.outcome)
  | .inBlock b, .rollback => (fault.elim (.ok G.ack) .error, .idle b.base)
  | .idle t, .run c => ((idleRun G fault t c).1, .idle (idleRun G fault t c).2)
  | .idle t, .commit | .idle t, .rollback => (fault.elim (.ok G.ack) .error, .idle t)

/-! ## What a statement does to an open block -/

namespace Block

variable {G : Engine T S P E} {fault : Option E} {b : Block T} {c : Statement S}

/-- **The failure rule.** A refused statement leaves an aborted block and changes nothing else. -/
theorem run_error {e : E} (h : (b.run G fault c).1 = .error e) :
    (b.run G fault c).2 = { b with aborted := true } := by
  rw [run] at h ⊢
  split
  · rfl
  · simp_all

/-- **The success rule.** A statement that is answered was not refused by anybody. -/
theorem run_ok {p : P} (h : (b.run G fault c).1 = .ok p) :
    fault = none ∧ b.attempt G c = .ok (p, (b.run G fault c).2) := by
  rw [run] at h ⊢
  cases fault with
  | some e => simp at h
  | none =>
    rw [Option.elim_none] at h ⊢
    split at h
    · simp at h
    · rename_i p' b' heq
      obtain rfl : p' = p := by simpa using h
      rw [heq]
      exact ⟨rfl, rfl⟩

theorem run_of_answered {r : P × Block T} (h : b.attempt G c = .ok r) :
    b.run G none c = (.ok r.1, r.2) := by
  rw [run, Option.elim_none, h]

theorem attempt_data_ok {s : S} {r : P × Block T} (h : b.attempt G (.data s) = .ok r) :
    b.aborted = false ∧ ∃ t, G.exec s b.cur = .ok (r.1, t) ∧ r.2 = { b with cur := t } := by
  rw [attempt] at h
  split_ifs at h with ha
  cases hx : G.exec s b.cur with
  | error e => rw [hx] at h; simp [Except.map] at h
  | ok q =>
    rw [hx] at h
    obtain rfl : _ = r := Except.ok.inj h
    exact ⟨by simpa using ha, q.2, rfl, rfl⟩

theorem attempt_savepoint_ok {n : String} {r : P × Block T}
    (h : b.attempt G (.savepoint n) = .ok r) :
    b.aborted = false ∧ r.2 = { b with marks := (n, b.cur) :: b.marks } := by
  rw [attempt] at h
  split_ifs at h with ha
  obtain rfl := Except.ok.inj h
  exact ⟨by simpa using ha, rfl⟩

theorem attempt_release_ok {n : String} {t : T} {marks : List (String × T)} {r : P × Block T}
    (hm : b.marks = (n, t) :: marks) (h : b.attempt G (.release n) = .ok r) :
    b.aborted = false ∧ r.2 = { b with marks := marks } := by
  rw [attempt, hm, resolve_cons_self] at h
  split_ifs at h with ha
  obtain rfl := Except.ok.inj h
  exact ⟨by simpa using ha, rfl⟩

theorem attempt_rollbackTo_ok {n : String} {t : T} {marks : List (String × T)} {r : P × Block T}
    (hm : b.marks = (n, t) :: marks) (h : b.attempt G (.rollbackTo n) = .ok r) :
    r.2 = { b with cur := t, aborted := false } := by
  rw [attempt, hm, resolve_cons_self] at h
  obtain rfl := Except.ok.inj h
  rw [← hm]

end Block

/-! ## Contents that nothing changes -/

variable {G : Engine T S P E}

/-- Everything the connection sees or could come back to is `t`. -/
def Session.Holds (t : T) : Session T → Prop
  | .inBlock b => b.base = t ∧ b.cur = t ∧ ∀ m ∈ b.marks, m.2 = t
  | .idle t' => t' = t

/-- The statement changes no contents. -/
def Engine.Reads (G : Engine T S P E) (s : S) : Prop :=
  ∀ t p t', G.exec s t = .ok (p, t') → t' = t

theorem eq_of_resolve {marks marks' : List (String × T)} {name : String} {t t' : T}
    (h : ∀ m ∈ marks, m.2 = t) (hr : resolve name marks = some (t', marks')) :
    t' = t ∧ ∀ m ∈ marks', m.2 = t := by
  induction marks with
  | nil => exact absurd hr (Option.some_ne_none _).symm
  | cons m marks ih =>
    rw [List.forall_mem_cons] at h
    rw [resolve] at hr
    split_ifs at hr with hm
    · obtain ⟨rfl, rfl⟩ := Prod.mk.inj (Option.some.inj hr)
      exact h
    · exact ih h.2 hr

theorem Block.holds_attempt {b b' : Block T} {t : T} {c : Statement S} {p : P}
    (h : (Session.inBlock b).Holds t) (hc : ∀ s, c = .data s → G.Reads s)
    (ha : b.attempt G c = .ok (p, b')) : (Session.inBlock b').Holds t := by
  obtain ⟨hbase, hcur, hmarks⟩ := h
  cases c with
  | data s =>
    obtain ⟨-, t', hexec, rfl⟩ := attempt_data_ok ha
    exact ⟨hbase, (hc s rfl _ _ _ hexec).trans hcur, hmarks⟩
  | savepoint name =>
    obtain ⟨-, rfl⟩ := attempt_savepoint_ok ha
    exact ⟨hbase, hcur, List.forall_mem_cons.mpr ⟨hcur, hmarks⟩⟩
  | release name =>
    rw [attempt] at ha
    split_ifs at ha
    cases hr : resolve name b.marks with
    | none => simp [hr] at ha
    | some r =>
      simp only [hr, Except.ok.injEq, Prod.mk.injEq] at ha
      rw [← ha.2]
      exact ⟨hbase, hcur, (eq_of_resolve hmarks hr).2⟩
  | rollbackTo name =>
    rw [attempt] at ha
    cases hr : resolve name b.marks with
    | none => simp [hr] at ha
    | some r =>
      simp only [hr, Except.ok.injEq, Prod.mk.injEq] at ha
      obtain ⟨hr₁, hr₂⟩ := eq_of_resolve hmarks hr
      rw [← ha.2]
      exact ⟨hbase, hr₁, List.forall_mem_cons.mpr ⟨hr₁, hr₂⟩⟩

/-- **A command that changes no contents** leaves them as they are, refused or not. -/
theorem Session.Holds.step {s : Session T} {t : T} (h : s.Holds t) {c : Command S}
    (hc : ∀ x, c = .run (.data x) → G.Reads x) (fault : Option E) :
    (s.step G fault c).2.Holds t := by
  cases s with
  | inBlock b =>
    obtain ⟨hbase, hcur, hmarks⟩ := h
    cases c with
    | run c =>
      change (Session.inBlock (b.run G fault c).2).Holds t
      cases hr : (b.run G fault c).1 with
      | error e =>
        rw [Block.run_error hr]
        exact ⟨hbase, hcur, hmarks⟩
      | ok p =>
        have hdata (x : S) (hx : c = .data x) : G.Reads x := hc x (congrArg _ hx)
        exact Block.holds_attempt ⟨hbase, hcur, hmarks⟩ hdata (Block.run_ok hr).2
    | commit =>
      cases fault with
      | some e => exact hbase
      | none =>
        -- an aborted block commits to its base and any other to its contents, and both are `t`
        change b.outcome = t
        rw [Block.outcome, hbase, hcur, ite_self]
    | rollback => exact hbase
  | idle t' =>
    obtain rfl : t' = t := h
    cases c with
    | run c =>
      change (idleRun G fault t' c).2 = t'
      cases c with
      | data x =>
        rw [idleRun]
        cases fault with
        | some e => rfl
        | none =>
          rw [Option.elim_none]
          cases hx : G.exec x t' with
          | error e => rfl
          | ok r => exact hc x rfl _ _ _ hx
      | savepoint name | release name | rollbackTo name => rfl
    | commit | rollback => rfl

end Postgres
