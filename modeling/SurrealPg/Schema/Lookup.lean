import SurrealPg.PgTx.Refinement
import SurrealPg.Postgres.Namesakes
import SurrealPg.Schema.Ddl

/-!
# Looking the table up in the catalog

The statements on keys name the table as an unqualified identifier, which the search path resolves.
The partition count and the estimate of the number of rows ask `pg_class` for the name, in whatever
schema. They speak of the same relation as long as no other relation of that name is partitioned
and has children, and none has an estimate that differs.
-/

namespace SurrealPg

open Postgres Semantics

/-! ## The estimate of a transaction -/

section

variable {tx : PgTransaction} {conn : TxConn} {w : Wire} {b : Block Database}

/-- What `count_approx` answers when nothing is refused: the first row the server sends. -/
theorem countApprox_eval (hconn : tx.conn = some conn) (hw : w.session = .inBlock b)
    (hrunning : b.aborted = false) (tableName : String) :
    ((tx.countApprox tableName).eval (Wire.answer calm) w).1 =
      .ok ((b.cur.pgClass.filter fun r ↦ r.1 = tableName ∧ 0 ≤ r.2).head?.map
        fun r ↦ r.2.toNat) := by
  have hrun : (b.run engine none (.data (.countApprox tableName))).1 =
      .ok ⟨(b.cur.pgClass.filter fun r ↦ r.1 = tableName ∧ 0 ≤ r.2).map fun r ↦ .num r.2, 0⟩ := by
    obtain ⟨base, cur, marks, aborted⟩ := b
    obtain rfl : aborted = false := hrunning
    rfl
  rw [PgTransaction.countApprox, PgTransaction.query, hconn]
  simp only [sendCommand, Dialogue.ask_bind, Dialogue.done_bind, Dialogue.eval_ask,
    Wire.answer_run hw, hrun]
  rw [List.head?_map, Option.map_map]
  rfl

end

/-! ## The look-ups agree -/

/-- The catalog look-ups for the name `table` are about the relation that the statements on keys
use. -/
structure LookupsAgree (c : Catalog ParamValue) (path : List String) (table : String) : Prop where
  /-- The count is that of its partitions. -/
  counted : c.partitionCount table = c.childCount (c.resolve path (foldName table))
  /-- It is accepted exactly if the relation has the configured layout. -/
  verified : ∀ hashPartitions,
    verifyPartitionCount table hashPartitions (c.partitionCount table) = .ok () ↔
      c.childCount (c.resolve path (foldName table)) = expectedCount hashPartitions
  /-- The estimate is its own, in whatever order the rows of `pg_class` come. -/
  estimated : ∀ (tx : PgTransaction) (conn : TxConn) (w : Wire) (b : Block Database),
    tx.conn = some conn → w.session = .inBlock b → b.aborted = false →
      b.cur.pgClass.Perm c.pgClass →
        ((tx.countApprox table).eval (Wire.answer calm) w).1 =
          .ok (Catalog.estimate (c.resolve path (foldName table)))

theorem countApprox_estimates_iff {c : Catalog ParamValue} {table : String} {e : Option ℕ} :
    (∀ (tx : PgTransaction) (conn : TxConn) (w : Wire) (b : Block Database),
      tx.conn = some conn → w.session = .inBlock b → b.aborted = false →
        b.cur.pgClass.Perm c.pgClass →
          ((tx.countApprox table).eval (Wire.answer calm) w).1 = .ok e) ↔
      ∀ rows : List (String × ℤ), rows.Perm c.pgClass →
        ((rows.filter fun r ↦ r.1 = table ∧ 0 ≤ r.2).head?.map fun r ↦ r.2.toNat) = e := by
  constructor
  · intro h rows hrows
    -- any transaction at all will do
    have hat := h ⟨some .pooled, false, 0, []⟩ .pooled
      ⟨.inBlock ⟨⟨∅, rows⟩, ⟨∅, rows⟩, [], false⟩, 0⟩ _ rfl rfl rfl hrows
    rw [countApprox_eval rfl rfl rfl] at hat
    exact Except.ok.inj hat
  · intro h tx conn w b hconn hw hrunning hrows
    rw [countApprox_eval hconn hw hrunning, h _ hrows]

/-- **Catalog look-ups are about the table the statements use** exactly if every other partitioned
relation of that name is without children, and every relation of that name that has an estimate has
that of the table. -/
theorem lookupsAgree_iff {table : String} (hlower : foldName table = table)
    (c : Catalog ParamValue) (path : List String) :
    LookupsAgree c path table ↔
      (∀ r ∈ c.rels, r.id.2 = table → r.partitioned = true → c.resolve path table ≠ some r →
        c.children r.id = []) ∧
      ∀ r ∈ c.rels, r.id.2 = table → 0 ≤ r.attrs.reltuples →
        Catalog.estimate (c.resolve path table) = some r.attrs.reltuples.toNat := by
  rw [← Catalog.partitionCount_eq_childCount_iff, ← Catalog.estimate_of_perm_iff,
    ← countApprox_estimates_iff]
  constructor
  · intro h
    have hcounted := h.counted
    have hestimated := h.estimated
    rw [hlower] at hcounted hestimated
    exact ⟨hcounted, hestimated⟩
  · rintro ⟨hcounted, hestimated⟩
    constructor
    · rw [hlower]
      exact hcounted
    · intro hashPartitions
      rw [hlower, verifyPartitionCount_ok_iff, hcounted]
    · rw [hlower]
      exact hestimated

/-! ## Two schemas -/

/-- A plain table in the first schema of the search path, and a namesake in another one that is
partitioned in two and has been analyzed. -/
def twoSchemas : Catalog ParamValue where
  rels :=
    [⟨("app", "kv"), false, none, Catalog.freshAttrs false "extended"⟩,
     ⟨("old", "kv"), true, none, { Catalog.freshAttrs false "extended" with reltuples := 7 }⟩,
     ⟨("old", "kv_p0"), false, some ⟨("old", "kv"), 2, 0⟩, Catalog.freshAttrs false "extended"⟩,
     ⟨("old", "kv_p1"), false, some ⟨("old", "kv"), 2, 1⟩, Catalog.freshAttrs false "extended"⟩]
  unique := by decide

/-- With the partitioned table first in the path, the look-ups are about it. -/
theorem lookupsAgree_old : LookupsAgree twoSchemas ["old", "app"] "kv" := by
  have hresolve : twoSchemas.resolve ["old", "app"] "kv" = some
      ⟨("old", "kv"), true, none, { Catalog.freshAttrs false "extended" with reltuples := 7 }⟩ :=
    rfl
  have hlower : foldName "kv" = "kv" := by decide +kernel
  refine (lookupsAgree_iff hlower twoSchemas ["old", "app"]).mpr ⟨?_, ?_⟩
  · intro r hr hname hpart hne
    simp only [twoSchemas, List.mem_cons, List.not_mem_nil, or_false] at hr
    rcases hr with rfl | rfl | rfl | rfl
    · exact absurd hpart (by decide)
    · exact absurd hresolve hne
    · exact absurd hname (by decide)
    · exact absurd hname (by decide)
  · intro r hr hname hnonneg
    rw [hresolve]
    simp only [twoSchemas, List.mem_cons, List.not_mem_nil, or_false] at hr
    rcases hr with rfl | rfl | rfl | rfl
    · exact absurd hnonneg (by decide)
    · rfl
    · exact absurd hname (by decide)
    · exact absurd hname (by decide)

/-- The plain table is counted as having the two partitions of its namesake. -/
theorem not_lookupsAgree_app : ¬LookupsAgree twoSchemas ["app"] "kv" := by
  intro h
  exact absurd h.counted (by decide +kernel)

end SurrealPg
