import Mathlib.Data.List.ReduceOption
import SurrealPg.PgTx.Refinement
import SurrealPg.Transaction.Setm

/-!
# Batch reads

`getm` asks for all its keys in one query and looks each of them up in the rows that come back. The
query has no `ORDER BY`, so the rows come in any order; their keys are distinct, because the key is
the primary key. A linear scan finds the first row of a key and a hash map keeps the last, and with
distinct keys both are the row of the key.

A read of one key and a read of many meet the same server, and whether it answers does not depend
on the keys. So `getm` fails where every `get` of its keys would, and returns what they return
elsewhere.
-/

namespace SurrealPg

open Postgres Semantics

/-! ## A server that orders rows as it likes -/

/-- The order of the rows of a query without `ORDER BY`: any order of its rows. -/
structure RowOrder where
  order : List Row → List Row
  perm : ∀ rows, (order rows).Perm rows

/-- The reply to a request, with the rows of a batch read in that order. -/
def RowOrder.arrange (o : RowOrder) : (q : Request) → q.Answer → q.Answer
  | .sql (.run (.data (.getm _))), .ok p => .ok { p with rows := o.order p.rows }
  | _, r => r

/-- The server of a connection, ordering the rows of batch reads by `o`. -/
def Wire.answerIn (o : RowOrder) (faults : ℕ → Option SqlxError) (w : Wire) (q : Request) :
    q.Answer × Wire :=
  (o.arrange q (w.answer faults q).1, (w.answer faults q).2)

/-- A `PgTx` with a single caller over such a server. -/
def Solo.answerIn (o : RowOrder) (faults : ℕ → Option SqlxError) (s : Solo) :
    (q : TxReq) → q.Answer × Solo
  | .tx r => ((s.wire.answerIn o faults r).1, { s with wire := (s.wire.answerIn o faults r).2 })
  | q => s.answer faults q

/-- **Reads are refused alike.** Whether the server answers a read, and what state it leaves, does
not depend on what is read. -/
theorem Wire.answer_read (faults : ℕ → Option SqlxError) (w : Wire) :
    (∃ e w', ∀ stmt : Stmt, w.answer faults (.sql (.run (.data stmt))) = (.error e, w')) ∨
      (∃ d w', ∀ (stmt : Stmt) (p : Reply), stmt.exec d = .ok (p, d) →
        w.answer faults (.sql (.run (.data stmt))) = (.ok p, w')) := by
  obtain ⟨session, sent⟩ := w
  cases hf : faults sent with
  | some e =>
    left
    cases session with
    | inBlock b =>
      exact ⟨e, ⟨.inBlock { b with aborted := true }, sent + 1⟩, fun stmt ↦ by
        simp [Wire.answer, Session.step, Block.run, hf]⟩
    | idle d =>
      exact ⟨e, ⟨.idle d, sent + 1⟩, fun stmt ↦ by
        simp [Wire.answer, Session.step, idleRun, hf]⟩
  | none =>
    cases session with
    | inBlock b =>
      cases hab : b.aborted with
      | true =>
        exact Or.inl ⟨engine.inFailed, ⟨.inBlock { b with aborted := true }, sent + 1⟩,
          fun stmt ↦ by simp [Wire.answer, Session.step, Block.run, Block.attempt, hf, hab]⟩
      | false =>
        refine Or.inr ⟨b.cur, ⟨.inBlock { b with aborted := false }, sent + 1⟩,
          fun stmt p hp ↦ ?_⟩
        simp [Wire.answer, Session.step, Block.run, Block.attempt, hf, hab, hp, Except.map]
    | idle d =>
      refine Or.inr ⟨d, ⟨.idle d, sent + 1⟩, fun stmt p hp ↦ ?_⟩
      simp [Wire.answer, Session.step, idleRun, hf, hp]

/-! ## The two ways to look a key up -/

namespace PgTransaction

/-- The path for few rows: the first row of each key. -/
def linearScan (rows : List Row) (keys : List Key) : List (Option Val) :=
  keys.map fun k ↦ ((rowsToPairs rows).find? fun r ↦ r.1 == k).map Prod.snd

/-- The path for many rows: the entry of each key in a map the rows were inserted into. -/
def hashLookup (rows : List Row) (keys : List Key) : List (Option Val) :=
  keys.map fun k ↦ ((∅ : Table Key Val).upsertAll (rowsToPairs rows)).get? k

theorem collectValues_eq (rows : List Row) (keys : List Key) :
    collectValues rows keys =
      if rows.length ≤ 64 ∧ rows.length * keys.length ≤ 8192 then linearScan rows keys
      else hashLookup rows keys := rfl

end PgTransaction

section LookUp

open PgTransaction

theorem find?_eq_lastValue {pairs : List (Key × Val)} (h : (pairs.map Prod.fst).Nodup) (k : Key) :
    (pairs.find? fun r ↦ r.1 == k).map Prod.snd = Table.lastValue pairs k := by
  induction pairs with
  | nil => simp [Table.lastValue]
  | cons p pairs ih =>
    rw [List.map_cons, List.nodup_cons] at h
    rw [lastValue_cons, List.find?_cons]
    by_cases hk : k = p.1
    · subst hk
      simp [lastValue_eq_none_iff.mpr h.1]
    · have hkey : (p.1 == k) = false := by simpa using Ne.symm hk
      rw [hkey, ih h.2, if_neg hk, Option.or_none]

/-- The rows that match the keys of a batch read. -/
def matchingRows (t : Table Key Val) (keys : List Key) : List Row :=
  (t.filter fun k ↦ keys.contains k).rows.map fun r ↦ .pair r.1 r.2

variable {t : Table Key Val} {keys : List Key} {rows : List Row}

theorem rowsToPairs_perm (h : rows.Perm (matchingRows t keys)) :
    (rowsToPairs rows).Perm (t.filter fun k ↦ keys.contains k).rows := by
  have hpairs : rowsToPairs (matchingRows t keys) = (t.filter fun k ↦ keys.contains k).rows :=
    rowsToPairs_map _
  rw [← hpairs]
  exact h.map _

theorem lastValue_of_perm (h : rows.Perm (matchingRows t keys)) {k : Key} (hk : k ∈ keys) :
    Table.lastValue (rowsToPairs rows) k = t.get? k := by
  rw [lastValue_congr_of_perm (nodup_keys _) (rowsToPairs_perm h), lastValue_rows,
    Table.get?_filter, if_pos (List.contains_iff_mem.mpr hk)]

theorem linearScan_eq (h : rows.Perm (matchingRows t keys)) :
    linearScan rows keys = keys.map t.get? := by
  have hnodup : ((rowsToPairs rows).map Prod.fst).Nodup :=
    ((rowsToPairs_perm h).map Prod.fst).nodup_iff.mpr (nodup_keys _)
  refine List.map_congr_left fun k hk ↦ ?_
  rw [find?_eq_lastValue hnodup, lastValue_of_perm h hk]

theorem hashLookup_eq (h : rows.Perm (matchingRows t keys)) :
    hashLookup rows keys = keys.map t.get? := by
  refine List.map_congr_left fun k hk ↦ ?_
  rw [Table.get?_upsertAll, lastValue_of_perm h hk, Table.get?_empty, Option.or_none]

/-- **Both paths** give each key of the batch its stored value. -/
theorem collectValues_of_perm (h : rows.Perm (matchingRows t keys)) :
    collectValues rows keys = keys.map t.get? := by
  rw [collectValues_eq, linearScan_eq h, hashLookup_eq h, ite_self]

end LookUp

/-! ## One query -/

section Queries

variable {o : RowOrder} {faults : ℕ → Option SqlxError} {tx : PgTransaction} {w w' : Wire}

theorem PgTransaction.query_eval_in {α : Type} {stmt : Stmt} {key : Option Key}
    {decode : Reply → Result α} (hopen : tx.isOpen = true) :
    ((tx.query stmt key decode).eval (Wire.answerIn o faults) w).1 =
      ((w.answerIn o faults (.sql (.run (.data stmt)))).1.mapError
        (.fromSqlx key)).bind decode := by
  obtain ⟨conn, hconn⟩ := Option.isSome_iff_exists.mp hopen
  rw [query, hconn]
  simp only [sendCommand, Dialogue.ask_bind, Dialogue.done_bind, Dialogue.eval_ask]
  cases (w.answerIn o faults (.sql (.run (.data stmt)))).1 <;> rfl

theorem PgTransaction.query_closed {α : Type} {stmt : Stmt} {key : Option Key}
    {decode : Reply → Result α} (hclosed : tx.isOpen = false) :
    tx.query stmt key decode = pure (.error .txClosed) := by
  have hconn : tx.conn = none :=
    Option.isNone_iff_eq_none.mp (Option.isSome_eq_false_iff.mp hclosed)
  rw [query, hconn]

end Queries

/-! ## The batch and its keys -/

section

variable (o : RowOrder) (faults : ℕ → Option SqlxError) (tx : PgTransaction) (w : Wire)

/-- **Either the server is in order or it is not.** Where reads are answered, from some contents,
`get` and `getm` return what is stored there; elsewhere every `get` fails, and so does every `getm`
of some keys. -/
theorem reads_cases :
    (∃ t : Table Key Val,
      (∀ k, ((tx.get k).eval (Wire.answerIn o faults) w).1 = .ok (t.get? k)) ∧
      ∀ keys, ((tx.getm keys).eval (Wire.answerIn o faults) w).1 = .ok (keys.map t.get?)) ∨
    ((∀ k, ∃ e, ((tx.get k).eval (Wire.answerIn o faults) w).1 = .error e) ∧
      ∀ keys, keys ≠ [] →
        ∃ e, ((tx.getm keys).eval (Wire.answerIn o faults) w).1 = .error e) := by
  -- only the empty list is answered without asking
  have hgetm : ∀ keys, keys ≠ [] → tx.getm keys =
      tx.query (.getm keys) none fun r ↦ .ok (PgTransaction.collectValues r.rows keys) :=
    fun keys hne ↦ if_neg (by simpa using hne)
  cases hopen : tx.isOpen with
  | false =>
    refine Or.inr ⟨fun k ↦ ⟨.txClosed, ?_⟩, fun keys hne ↦ ⟨.txClosed, ?_⟩⟩
    · rw [PgTransaction.get, PgTransaction.query_closed hopen]
      rfl
    · rw [hgetm keys hne, PgTransaction.query_closed hopen]
      rfl
  | true =>
    obtain ⟨e, w', h⟩ | ⟨d, w', h⟩ := w.answer_read faults
    · refine Or.inr ⟨fun k ↦ ⟨.fromSqlx (some k) e, ?_⟩,
        fun keys hne ↦ ⟨.fromSqlx none e, ?_⟩⟩
      · rw [PgTransaction.get, PgTransaction.query_eval_in hopen, Wire.answerIn, h]
        rfl
      · rw [hgetm keys hne, PgTransaction.query_eval_in hopen, Wire.answerIn, h]
        rfl
    · refine Or.inl ⟨d.kv, fun k ↦ ?_, fun keys ↦ ?_⟩
      · rw [PgTransaction.get, PgTransaction.query_eval_in hopen, Wire.answerIn, h _ _ rfl]
        cases d.kv.get? k <;> rfl
      · by_cases hne : keys = []
        · rw [hne]
          rfl
        · rw [hgetm keys hne, PgTransaction.query_eval_in hopen, Wire.answerIn, h _ _ rfl]
          exact congrArg Except.ok (collectValues_of_perm (o.perm _))

/-! ## The totals -/

theorem getMultiResult_eq (vs : List (Option Val)) :
    PgTx.getMultiResult vs =
      ⟨vs, vs.reduceOption.length, (vs.reduceOption.map List.length).sum⟩ := by
  have hbytes : (vs.map fun v ↦ v.elim 0 List.length).sum =
      (vs.reduceOption.map List.length).sum := by
    induction vs with
    | nil => rfl
    | cons v vs ih => cases v <;> simp [ih]
  have hrecords : vs.countP Option.isSome = vs.reduceOption.length := by
    rw [List.countP_eq_length_filter, List.reduceOption_length_eq]
  rw [PgTx.getMultiResult, hrecords, hbytes]

theorem PgTx.getm_eval_in (keys : List Key) :
    ((PgTx.getm keys none).eval (Solo.answerIn o faults) ⟨some tx, false, w⟩).1 =
      (((tx.getm keys).eval (Wire.answerIn o faults) w).1.mapError .ofPgStoreError).map
        PgTx.getMultiResult := by
  have hlock : PgTx.lock.eval (Solo.answerIn o faults) ⟨some tx, false, w⟩ =
      (.ok tx, ⟨some tx, false, w⟩) := rfl
  have hunder : (PgTx.underGuard (PgTx.reading (fun tx ↦ tx.getm keys) tx)).eval
      (Solo.answerIn o faults) ⟨some tx, false, w⟩ = _ :=
    Dialogue.eval_embed (Solo.mk (some tx) false) (fun _ _ ↦ rfl) _ w
  rw [PgTx.getm, Dialogue.eval_map, PgTx.read, PgTx.checkVersion]
  simp only [Option.isSome_none, if_neg Bool.false_ne_true]
  rw [PgTx.withTx, Dialogue.eval_bind, hlock]
  dsimp only
  rw [Dialogue.eval_bind, hunder, PgTx.reading, Dialogue.eval_map]
  rfl

/-- **A batch read is the reads of its keys.** -/
theorem getm_eq_get (keys : List Key) :
    (∀ vs, ((tx.getm keys).eval (Wire.answerIn o faults) w).1 = .ok vs →
      vs.length = keys.length ∧ ∀ (i : ℕ) (hk : i < keys.length) (hv : i < vs.length),
        ((tx.get keys[i]).eval (Wire.answerIn o faults) w).1 = .ok vs[i]) ∧
    (∀ e, ((tx.getm keys).eval (Wire.answerIn o faults) w).1 = .error e →
      keys ≠ [] ∧ ∀ k, ∃ e, ((tx.get k).eval (Wire.answerIn o faults) w).1 = .error e) ∧
    (∀ (t : Table Key Val) (rows : List Row), rows.Perm (matchingRows t keys) →
      PgTransaction.linearScan rows keys = PgTransaction.hashLookup rows keys) ∧
    ((PgTx.getm keys none).eval (Solo.answerIn o faults) ⟨some tx, false, w⟩).1 =
      (((tx.getm keys).eval (Wire.answerIn o faults) w).1.mapError .ofPgStoreError).map
        fun vs ↦ ⟨vs, vs.reduceOption.length, (vs.reduceOption.map List.length).sum⟩ := by
  have hpaths : ∀ (t : Table Key Val) (rows : List Row), rows.Perm (matchingRows t keys) →
      PgTransaction.linearScan rows keys = PgTransaction.hashLookup rows keys :=
    fun t rows h ↦ (linearScan_eq h).trans (hashLookup_eq h).symm
  have htotals := PgTx.getm_eval_in o faults tx w keys
  rw [funext getMultiResult_eq] at htotals
  obtain ⟨t, hget, hgetm⟩ | ⟨hget, hgetm⟩ := reads_cases o faults tx w
  -- reads are answered, from the table `t`
  · refine ⟨fun vs hvs ↦ ?_, fun e he ↦ ?_, hpaths, htotals⟩
    · obtain rfl : keys.map t.get? = vs := Except.ok.inj ((hgetm keys).symm.trans hvs)
      refine ⟨List.length_map _, fun i hk hv ↦ ?_⟩
      rw [hget, List.getElem_map]
    · rw [hgetm] at he
      exact absurd he (by simp)
  -- reads are refused, and only the empty list has an answer
  · refine ⟨fun vs hvs ↦ ?_, fun e he ↦ ⟨?_, hget⟩, hpaths, htotals⟩
    · by_cases hne : keys = []
      · subst hne
        obtain rfl : [] = vs := Except.ok.inj hvs
        exact ⟨rfl, fun i hk ↦ absurd hk (Nat.not_lt_zero i)⟩
      · obtain ⟨e, he⟩ := hgetm keys hne
        rw [he] at hvs
        exact absurd hvs (by simp)
    · rintro rfl
      exact absurd he (by simp [PgTransaction.getm])

/-- Repeated and missing keys, with the rows in descending order. -/
example : (((PgTransaction.newPooled false).getm [[2], [3], [1], [2]]).eval
      (Wire.answerIn ⟨List.reverse, List.reverse_perm⟩ fun _ ↦ none)
      ⟨.inBlock (Block.begin ⟨(∅ : Table Key Val).upsertAll [([1], [10]), ([2], [20])], []⟩),
        0⟩).1 = .ok [some [20], none, some [10], some [20]] := rfl

end

end SurrealPg
