import Mathlib.Data.Nat.Notation
import Mathlib.Logic.Function.Basic
import Mathlib.Tactic.SplitIfs

/-!
# Concurrent transactions over rows

Any number of transactions over the rows `K → Option V` of one database. Each keeps its own writes
until it commits, reads its own writes before anybody else's, and sees a snapshot of the committed
rows: a new one for every statement (`READ COMMITTED`), or the one its first statement took
(`REPEATABLE READ`, `SERIALIZABLE`).

A statement takes effect at one moment. To write a row, that moment has to come when no other
unfinished transaction has written the row, which is how one statement waits for another
transaction; the row is then looked at again as it has been committed last, and a transaction that
keeps its snapshot does not write a row changed since. `UPDATE` and `DELETE` look for the row in the
snapshot first, and do not wait for a row they do not find there. What an `UPDATE` sees when it
waits and its row is changed under it is what it would see if it had been sent later.

So a kept snapshot is the one of the moment at which the first statement takes effect, and only a
statement that succeeds takes it. PostgreSQL takes it when the first statement starts, whatever
becomes of that statement: where the first statement waits, its snapshot is older there than here,
and where a savepoint lets a transaction go on after its first statement was refused, it has one
there and none here.

The server may refuse any statement, for these or for other reasons; that puts the transaction in
the aborted state, in which it is refused everything but its end.
-/

namespace Postgres

/-- Isolation levels. -/
inductive Isolation
  | readCommitted
  | repeatableRead
  | serializable
  deriving DecidableEq

/-- Whether the snapshot of the first statement serves the whole transaction. -/
def Isolation.keepsSnapshot : Isolation → Bool
  | readCommitted => false
  | repeatableRead | serializable => true

/-- The level a `BEGIN ISOLATION LEVEL` names. -/
def Isolation.ofSql (level : String) : Option Isolation :=
  if level = "READ COMMITTED" ∨ level = "READ UNCOMMITTED" then some readCommitted
  else if level = "REPEATABLE READ" then some repeatableRead
  else if level = "SERIALIZABLE" then some serializable
  else none

/-- A statement that writes one row. -/
inductive RowWrite (V : Type)
  /-- `INSERT .. ON CONFLICT DO UPDATE SET val = v` -/
  | upsert (v : V)
  /-- `INSERT .. ON CONFLICT DO NOTHING` -/
  | insert (v : V)
  /-- `UPDATE .. SET val = v WHERE p` -/
  | update (p : V → Bool) (v : V)
  /-- `DELETE .. WHERE p` -/
  | delete (p : V → Bool)

namespace RowWrite

variable {V : Type}

/-- What a statement makes of the row it meets; `none` where it leaves the row alone. -/
def effect : RowWrite V → Option V → Option (Option V)
  | upsert v, _ => some (some v)
  | insert v, none => some (some v)
  | insert _, some _ => none
  | update p v, some w => if p w then some (some v) else none
  | delete p, some w => if p w then some none else none
  | update _ _, none | delete _, none => none

/-- Whether the row is looked for in the snapshot first. -/
def seeks : RowWrite V → Bool
  | upsert _ | insert _ => false
  | update _ _ | delete _ => true

end RowWrite

/-- A statement about one row. -/
inductive Access (V : Type)
  | read
  | write (w : RowWrite V)

/-- What a statement about one row reports: the row it found, or whether it wrote the row. -/
inductive Report (V : Type)
  | found (row : Option V)
  | affected (hit : Bool)

/-- What a statement reports of the row it meets, and what it makes of it. -/
def Access.alone {V : Type} (row : Option V) : Access V → Report V × Option V
  | read => (.found row, row)
  | write w => (.affected (w.effect row).isSome, (w.effect row).getD row)

/-- The committed rows after a number of commits. -/
structure Snapshot (K V : Type) where
  number : ℕ
  rows : K → Option V

/-- A transaction that has not ended. -/
structure Txn (K V : Type) where
  level : Isolation
  /-- The snapshot it keeps, once it has taken it. -/
  snapshot : Option (Snapshot K V)
  /-- What it has made of the rows it has written. -/
  own : K → Option (Option V)
  aborted : Bool

/-- A database and its unfinished transactions. -/
structure Cluster (ι K V : Type) where
  /-- How many transactions have committed. -/
  now : ℕ
  /-- The rows as committed last. -/
  rows : K → Option V
  /-- The commit that last wrote a row. -/
  stamp : K → ℕ
  txn : ι → Option (Txn K V)

/-- The transaction `BEGIN` opens. -/
def Txn.begin {K V : Type} (level : Isolation) : Txn K V := ⟨level, none, fun _ ↦ none, false⟩

/-- The transaction has made `x` of row `k`. -/
def Txn.record {K V : Type} [DecidableEq K] (t : Txn K V) (k : K) (x : Option V) : Txn K V :=
  { t with own := Function.update t.own k (some x) }

@[simp] theorem Txn.record_own_self {K V : Type} [DecidableEq K] (t : Txn K V) (k : K)
    (x : Option V) : (t.record k x).own k = some x := Function.update_self ..

theorem Txn.record_own_of_ne {K V : Type} [DecidableEq K] {t : Txn K V} {k k' : K}
    {x : Option V} (h : k' ≠ k) : (t.record k x).own k' = t.own k' := Function.update_of_ne h ..

namespace Cluster

variable {ι K V : Type}

/-- A database without unfinished transactions. -/
def quiet (rows : K → Option V) : Cluster ι K V := ⟨0, rows, fun _ ↦ 0, fun _ ↦ none⟩

/-- The snapshot a statement of `t` goes by. -/
def snapshotOf (c : Cluster ι K V) (t : Txn K V) : Snapshot K V :=
  t.snapshot.getD ⟨c.now, c.rows⟩

/-- The row `t` sees. -/
def sees (c : Cluster ι K V) (t : Txn K V) (k : K) : Option V :=
  (t.own k).getD ((c.snapshotOf t).rows k)

/-- The row `t` meets when it writes. -/
def newest (c : Cluster ι K V) (t : Txn K V) (k : K) : Option V := (t.own k).getD (c.rows k)

/-- The transaction once a statement of it has taken effect, which is when it takes its snapshot. -/
def pin (c : Cluster ι K V) (t : Txn K V) : Txn K V :=
  if t.level.keepsSnapshot then { t with snapshot := some (c.snapshotOf t) } else t

/-- The row to be written was changed after the snapshot that `t` keeps. A row that was deleted
since is not in the way of an `INSERT`. -/
def Overtaken (c : Cluster ι K V) (t : Txn K V) (k : K) (w : RowWrite V) : Prop :=
  ∃ snap, t.snapshot = some snap ∧ snap.number < c.stamp k ∧ (w.seeks = true ∨ c.rows k ≠ none)

/-- No other unfinished transaction has written the row. -/
def Free (c : Cluster ι K V) (i : ι) (k : K) : Prop :=
  ∀ j t, j ≠ i → c.txn j = some t → t.own k = none

variable [DecidableEq ι]

/-- Transaction `i` goes on as `t`. -/
def put (c : Cluster ι K V) (i : ι) (t : Txn K V) : Cluster ι K V :=
  { c with txn := Function.update c.txn i (some t) }

/-- Transaction `i` ends without effect. -/
def rollback (c : Cluster ι K V) (i : ι) : Cluster ι K V :=
  { c with txn := Function.update c.txn i none }

/-- Transaction `i`, which is `t`, ends, and its writes are there for everybody. -/
def commit (c : Cluster ι K V) (i : ι) (t : Txn K V) : Cluster ι K V where
  now := c.now + 1
  rows k := (t.own k).getD (c.rows k)
  stamp k := if (t.own k).isSome then c.now + 1 else c.stamp k
  txn := Function.update c.txn i none

/-! ## What the operations do -/

section

variable {c : Cluster ι K V} {t : Txn K V}

omit [DecidableEq ι]

@[simp] theorem pin_own : (c.pin t).own = t.own := by
  rw [pin]
  split_ifs <;> rfl

@[simp] theorem pin_aborted : (c.pin t).aborted = t.aborted := by
  rw [pin]
  split_ifs <;> rfl

theorem pin_snapshot (h : t.level.keepsSnapshot = true) :
    (c.pin t).snapshot = some (c.snapshotOf t) := by
  rw [pin, if_pos h]

end

section

variable {c : Cluster ι K V} {i j : ι} {t : Txn K V} {k : K}

@[simp] theorem put_txn_self : (c.put i t).txn i = some t := Function.update_self ..

theorem put_txn_of_ne (h : j ≠ i) : (c.put i t).txn j = c.txn j := Function.update_of_ne h ..

@[simp] theorem put_rows : (c.put i t).rows = c.rows := rfl

@[simp] theorem rollback_txn_self : (c.rollback i).txn i = none := Function.update_self ..

theorem rollback_txn_of_ne (h : j ≠ i) : (c.rollback i).txn j = c.txn j :=
  Function.update_of_ne h ..

@[simp] theorem commit_txn_self : (c.commit i t).txn i = none := Function.update_self ..

theorem commit_txn_of_ne (h : j ≠ i) : (c.commit i t).txn j = c.txn j :=
  Function.update_of_ne h ..

theorem commit_rows_of_own {x : Option V} (h : t.own k = some x) : (c.commit i t).rows k = x := by
  simp only [commit, h, Option.getD_some]

theorem commit_rows_of_none (h : t.own k = none) : (c.commit i t).rows k = c.rows k := by
  simp only [commit, h, Option.getD_none]

/-! ## Well-formed clusters -/

/-- A snapshot shows every row that was not written since. -/
def Coherent (c : Cluster ι K V) (snap : Snapshot K V) : Prop :=
  snap.number ≤ c.now ∧ ∀ k, c.stamp k ≤ snap.number → snap.rows k = c.rows k

/-- What every reachable cluster satisfies: a row has one unfinished writer, and kept snapshots show
what was committed before them. -/
structure WellFormed (c : Cluster ι K V) : Prop where
  exclusive : ∀ {i t k}, c.txn i = some t → t.own k ≠ none → c.Free i k
  stamp_le : ∀ k, c.stamp k ≤ c.now
  coherent : ∀ {i t snap}, c.txn i = some t → t.snapshot = some snap → c.Coherent snap

omit [DecidableEq ι] in
theorem wellFormed_quiet (rows : K → Option V) : (quiet rows : Cluster ι K V).WellFormed where
  exclusive h := absurd h (Option.some_ne_none _).symm
  stamp_le _ := Nat.zero_le _
  coherent h := absurd h (Option.some_ne_none _).symm

namespace WellFormed

omit [DecidableEq ι] in
/-- **First updater wins.** A transaction that keeps its snapshot writes a row only as the snapshot
shows it. -/
theorem rows_eq_of_not_overtaken (h : c.WellFormed) (ht : c.txn i = some t) {snap : Snapshot K V}
    (hsnap : t.snapshot = some snap) {w : RowWrite V} (hover : ¬c.Overtaken t k w)
    (hrow : w.seeks = true ∨ c.rows k ≠ none) : snap.rows k = c.rows k := by
  apply (h.coherent ht hsnap).2 k
  by_contra hlt
  exact hover ⟨snap, hsnap, Nat.lt_of_not_le hlt, hrow⟩

omit [DecidableEq ι] in
theorem coherent_snapshotOf (h : c.WellFormed) (ht : c.txn i = some t) :
    c.Coherent (c.snapshotOf t) := by
  rw [snapshotOf]
  cases hsnap : t.snapshot with
  | none => exact ⟨Nat.le_refl _, fun _ _ ↦ rfl⟩
  | some snap => exact h.coherent ht hsnap

theorem put (h : c.WellFormed) (hown : ∀ k, t.own k ≠ none → c.Free i k)
    (hsnap : ∀ snap, t.snapshot = some snap → c.Coherent snap) : (c.put i t).WellFormed where
  exclusive := by
    intro j u k hj hu l v hl hv
    by_cases hji : j = i
    · subst hji
      obtain rfl : t = u := by simpa using hj
      rw [put_txn_of_ne hl] at hv
      exact hown k hu l v hl hv
    · rw [put_txn_of_ne hji] at hj
      by_cases hli : l = i
      · subst hli
        obtain rfl : t = v := by simpa using hv
        -- were it written by both, the other would have found it taken
        by_contra hne
        exact hu (hown k hne j u hji hj)
      · rw [put_txn_of_ne hli] at hv
        exact h.exclusive hj hu l v hl hv
  stamp_le := h.stamp_le
  coherent := by
    intro j u snap hj hu
    by_cases hji : j = i
    · subst hji
      obtain rfl : t = u := by simpa using hj
      exact hsnap snap hu
    · rw [put_txn_of_ne hji] at hj
      exact h.coherent hj hu

theorem «begin» (h : c.WellFormed) (i : ι) (level : Isolation) :
    (c.put i (.begin level)).WellFormed :=
  h.put (fun _ hown ↦ absurd rfl hown) fun _ hsnap ↦ absurd hsnap (Option.some_ne_none _).symm

theorem abort (h : c.WellFormed) (ht : c.txn i = some t) :
    (c.put i { t with aborted := true }).WellFormed :=
  h.put (fun _ hown ↦ h.exclusive ht hown) fun _ hsnap ↦ h.coherent ht hsnap

theorem pin (h : c.WellFormed) (ht : c.txn i = some t) : (c.put i (c.pin t)).WellFormed := by
  apply h.put
  · intro k hown
    rw [pin_own] at hown
    exact h.exclusive ht hown
  · intro snap hsnap
    rw [Cluster.pin] at hsnap
    split_ifs at hsnap
    · rw [← Option.some.inj hsnap]
      exact h.coherent_snapshotOf ht
    · exact h.coherent ht hsnap

theorem rollback (h : c.WellFormed) (i : ι) : (c.rollback i).WellFormed := by
  have hold : ∀ {j u}, (c.rollback i).txn j = some u → c.txn j = some u := by
    intro j u hj
    by_cases hji : j = i
    · rw [hji, rollback_txn_self] at hj
      exact absurd hj (Option.some_ne_none _).symm
    · rwa [rollback_txn_of_ne hji] at hj
  exact ⟨fun hj hu l v hl hv ↦ h.exclusive (hold hj) hu l v hl (hold hv), h.stamp_le,
    fun hj hsnap ↦ h.coherent (hold hj) hsnap⟩

theorem commit (h : c.WellFormed) (i : ι) (t : Txn K V) : (c.commit i t).WellFormed := by
  have hold : ∀ {j u}, (c.commit i t).txn j = some u → c.txn j = some u := by
    intro j u hj
    by_cases hji : j = i
    · rw [hji, commit_txn_self] at hj
      exact absurd hj (Option.some_ne_none _).symm
    · rwa [commit_txn_of_ne hji] at hj
  refine ⟨fun hj hu l v hl hv ↦ h.exclusive (hold hj) hu l v hl (hold hv), ?_, ?_⟩
  · intro k
    have hle := h.stamp_le k
    simp only [Cluster.commit]
    split_ifs <;> omega
  · intro j u snap hj hsnap
    obtain ⟨hle, hrows⟩ := h.coherent (hold hj) hsnap
    refine ⟨Nat.le_succ_of_le hle, fun k hstamp ↦ ?_⟩
    -- a row written now has a stamp that no earlier snapshot reaches
    cases hown : t.own k with
    | some x =>
      simp only [Cluster.commit, hown, Option.isSome_some, if_true] at hstamp
      omega
    | none =>
      rw [commit_rows_of_none hown]
      simp only [Cluster.commit, hown, Option.isSome_none, Bool.false_eq_true, if_false] at hstamp
      exact hrows k hstamp

end WellFormed

end

/-! ## Statements -/

section

variable [DecidableEq K]

/-- A statement of transaction `i`, which is `t`, that is not refused. -/
inductive Exec (c : Cluster ι K V) (i : ι) (t : Txn K V) (k : K) :
    Access V → Report V → Cluster ι K V → Prop
  | read : Exec c i t k .read (.found (c.sees t k)) (c.put i (c.pin t))
  /-- The row looked for is not in the snapshot. -/
  | skip {w : RowWrite V} : w.seeks = true → w.effect (c.sees t k) = none →
    Exec c i t k (.write w) (.affected false) (c.put i (c.pin t))
  /-- The row as committed last is left alone. -/
  | keep {w : RowWrite V} : c.Free i k → ¬c.Overtaken t k w → w.effect (c.newest t k) = none →
    Exec c i t k (.write w) (.affected false) (c.put i (c.pin t))
  | hit {w : RowWrite V} {x : Option V} : c.Free i k → ¬c.Overtaken t k w →
    w.effect (c.newest t k) = some x →
    Exec c i t k (.write w) (.affected true)
      (c.put i ((c.pin t).record k x))

theorem WellFormed.exec {c c' : Cluster ι K V} {i : ι} {t : Txn K V} {k : K} {a : Access V}
    {r : Report V} (h : c.WellFormed) (ht : c.txn i = some t) (hexec : c.Exec i t k a r c') :
    c'.WellFormed := by
  cases hexec with
  | read => exact h.pin ht
  | skip => exact h.pin ht
  | keep => exact h.pin ht
  | hit hfree =>
    have hpin := h.pin ht
    apply h.put
    · intro k' hown
      by_cases hk : k' = k
      · rw [hk]
        exact hfree
      · rw [Txn.record_own_of_ne hk, pin_own] at hown
        exact h.exclusive ht hown
    · exact fun snap hsnap ↦ hpin.coherent put_txn_self hsnap

/-- A statement does to the row it meets what it does to that row alone, unless a kept snapshot
shows another one. -/
theorem Exec.eq_alone {c c' : Cluster ι K V} {i : ι} {t : Txn K V} {k : K} {a : Access V}
    {r : Report V} (h : c.Exec i t k a r c') (hsees : c.sees t k = c.newest t k) :
    r = (a.alone (c.newest t k)).1 ∧
      ∃ t', c'.txn i = some t' ∧ c'.newest t' k = (a.alone (c.newest t k)).2 := by
  have hpin : (c.put i (c.pin t)).newest (c.pin t) k = c.newest t k := by
    rw [newest, newest, pin_own, put_rows]
  cases h with
  | read => exact ⟨congrArg _ hsees, _, put_txn_self, hpin⟩
  | skip hseeks heffect =>
    rw [hsees] at heffect
    refine ⟨?_, _, put_txn_self, ?_⟩
    · rw [Access.alone, heffect, Option.isSome_none]
    · rw [hpin, Access.alone, heffect, Option.getD_none]
  | keep hfree hover heffect =>
    refine ⟨?_, _, put_txn_self, ?_⟩
    · rw [Access.alone, heffect, Option.isSome_none]
    · rw [hpin, Access.alone, heffect, Option.getD_none]
  | hit hfree hover heffect =>
    refine ⟨?_, _, put_txn_self, ?_⟩
    · rw [Access.alone, heffect, Option.isSome_some]
    · rw [newest, Txn.record_own_self, Access.alone, heffect, Option.getD_some, Option.getD_some]

end

end Cluster

end Postgres
