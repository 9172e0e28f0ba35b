import SurrealPg.Schema.Layout

/-!
# What a start does to the table

With `auto_create_table` on, a start sends the `CREATE` text, then the tuning text, then counts the
partitions under the configured name and compares the count with the configuration. Three
questions are settled about this order of things: whether the count of a table this program has
created is the expected one, whether a start that refuses the layout leaves the database as it was,
and whether the persistence asked for reaches the relations that hold the rows.

None of these holds without a condition. The name is folded when it is written into a statement and
is not when it is bound; the tuning runs before the count is checked; and the `UNLOGGED` of the
parent is not repeated for its partitions.
-/

namespace SurrealPg

open Postgres TuneConfig

/-- Why a start refuses the layout it finds. -/
inductive LayoutError
  /-- The `CREATE` text was refused by the server. -/
  | create (e : DdlError)
  /-- The partition count is not the configured one. -/
  | mismatch (e : PgStoreError)
  deriving DecidableEq

/-- The part of `PgStore::new` under `auto_create_table`, with the texts made already. -/
def startTable (schema : String) (path : List String) (table : String) (hashPartitions : ℕ)
    (create tune : List (Ddl ParamValue)) (c : Catalog ParamValue) :
    Except LayoutError Unit × Catalog ParamValue :=
  match c.send schema path create with
  | (.error e, c₁) => (.error (.create e), c₁)
  | (.ok (), c₁) =>
    -- tuning that is refused is only warned about
    let c₂ := (c₁.send schema path tune).2
    ((verifyPartitionCount table hashPartitions (c₂.partitionCount table)).mapError .mismatch, c₂)

section

variable {t : TuneConfig} {schema table : String} {create tune : List (Ddl ParamValue)}

theorem createTableSql_eq_some (h : t.createTableSql table = some create) :
    create = t.createStatements table := by
  rw [createTableSql] at h
  split_ifs at h
  exact (Option.some.inj h).symm

theorem tuneTableSql_eq_some (h : t.tuneTableSql table = some tune) :
    tune = t.tuneStatements table := by
  rw [tuneTableSql] at h
  split_ifs at h
  exact (Option.some.inj h).symm

theorem isAlter_of_mem_tuneRelation {name : String} {s : Ddl ParamValue}
    (h : s ∈ t.tuneRelation name) : s.isAlter = true := by
  simp only [tuneRelation, List.mem_cons, List.not_mem_nil, or_false] at h
  rcases h with rfl | rfl | rfl <;> rfl

theorem isAlter_of_mem_tuneStatements {s : Ddl ParamValue} (h : s ∈ t.tuneStatements table) :
    s.isAlter = true := by
  by_cases hN : t.hashPartitions ≤ 1
  · rw [tuneStatements_of_le hN] at h
    exact isAlter_of_mem_tuneRelation h
  · rw [tuneStatements_of_lt (not_le.mp hN), List.mem_cons, List.mem_flatMap] at h
    obtain rfl | ⟨i, -, hi⟩ := h
    · rfl
    · exact isAlter_of_mem_tuneRelation hi

theorem shape_send_tuneStatements (c : Catalog ParamValue) :
    (c.send schema [schema] (t.tuneStatements table)).2.shape = c.shape :=
  Catalog.shape_send fun _ hs ↦ isAlter_of_mem_tuneStatements hs

/-! ## The answer of a start -/

theorem startTable_of_create {c c₁ : Catalog ParamValue}
    (h : c.execAll schema [schema] (t.createStatements table) = .ok c₁) :
    startTable schema [schema] table t.hashPartitions (t.createStatements table)
        (t.tuneStatements table) c =
      ((verifyPartitionCount table t.hashPartitions (c₁.partitionCount table)).mapError .mismatch,
        (c₁.send schema [schema] (t.tuneStatements table)).2) := by
  rw [startTable, Catalog.send, h]
  dsimp only
  rw [Catalog.partitionCount_eq_of_shape (shape_send_tuneStatements c₁)]

theorem startTable_of_refused {c : Catalog ParamValue} {e : DdlError}
    (h : c.execAll schema [schema] (t.createStatements table) = .error e) :
    startTable schema [schema] table t.hashPartitions (t.createStatements table)
        (t.tuneStatements table) c = (.error (.create e), c) := by
  rw [startTable, Catalog.send, h]

theorem mapError_eq_ok_iff {r : Result Unit} :
    (r.mapError LayoutError.mismatch) = .ok () ↔ r = .ok () := by
  cases r with
  | error e => exact iff_of_false nofun nofun
  | ok u => exact iff_of_true rfl rfl

/-- The partitions counted under the configured name. -/
def TableState.count (table : String) : TableState → ℕ
  | .absent | .plain _ => 0
  | .partitioned _ cs => if foldName table = table then cs.length else 0

theorem partitionCount_catalog (σ : TableState) :
    (σ.catalog schema table).partitionCount table = σ.count table := by
  cases σ with
  | absent => rfl
  | plain a =>
    apply partitionCount_of_not_partitioned
    intro r hr
    rw [List.mem_singleton.mp hr]
    rfl
  | partitioned a cs => exact partitionCount_partitionedCatalog _ _ _ _

/-! ## Later starts -/

/-- The relations the `CREATE` text asks for. -/
def createdIds (t : TuneConfig) (schema table : String) : List RelId :=
  if t.hashPartitions ≤ 1 then [tableId schema table]
  else tableId schema table :: (List.range t.hashPartitions).map (childId schema table)

theorem execAll_createStatements_of_mem {c : Catalog ParamValue}
    (h : ∀ id ∈ createdIds t schema table, id ∈ c.rels.map Relation.id) :
    c.execAll schema [schema] (t.createStatements table) = .ok c := by
  apply Catalog.execAll_of_forall
  intro s hs
  by_cases hN : t.hashPartitions ≤ 1
  · rw [createdIds, if_pos hN] at h
    rw [createStatements_of_le hN, List.mem_singleton] at hs
    rw [hs]
    exact exec_createTable_of_mem (h _ (List.mem_singleton_self _)) _ _
  · rw [createdIds, if_neg hN] at h
    rw [createStatements_of_lt (not_le.mp hN), List.mem_cons] at hs
    obtain rfl | hs := hs
    · exact exec_createTable_of_mem (h _ List.mem_cons_self) _ _
    · obtain ⟨i, hi, rfl⟩ := List.mem_map.mp hs
      have hmem : childId schema table i ∈ c.rels.map Relation.id :=
        h _ (List.mem_cons_of_mem _ (List.mem_map_of_mem hi))
      exact if_pos hmem

theorem mem_of_mem_createdIds {id : RelId} (h : id ∈ createdIds t schema table) :
    id ∈ ((TableState.first t).catalog schema table).rels.map Relation.id := by
  rw [TableState.first]
  rw [createdIds] at h
  split_ifs at h ⊢
  · exact h
  · rcases List.mem_cons.mp h with rfl | h
    · exact tableId_mem
    · obtain ⟨i, hi, rfl⟩ := List.mem_map.mp h
      apply childId_mem_iff.mpr
      rw [List.length_replicate]
      exact List.mem_range.mp hi

/-- The catalog after `n` starts. -/
def afterStarts (schema table : String) (hashPartitions : ℕ) (create tune : List (Ddl ParamValue))
    (n : ℕ) : Catalog ParamValue :=
  (fun c ↦ (startTable schema [schema] table hashPartitions create tune c).2)^[n] ∅

/-- **Every start finds or makes the relations of the first one.** -/
theorem exists_created (t : TuneConfig) (schema table : String) (n : ℕ) :
    ∃ c₁, (afterStarts schema table t.hashPartitions (t.createStatements table)
        (t.tuneStatements table) n).execAll schema [schema] (t.createStatements table) = .ok c₁ ∧
      c₁.shape = ((TableState.first t).catalog schema table).shape := by
  induction n with
  | zero => exact ⟨_, execAll_createStatements t .absent, rfl⟩
  | succ n ih =>
    obtain ⟨c₁, hcreate, hshape⟩ := ih
    -- the tuning in between alters relations and makes none
    have hnext : (afterStarts schema table t.hashPartitions (t.createStatements table)
        (t.tuneStatements table) (n + 1)).shape =
          ((TableState.first t).catalog schema table).shape := by
      rw [afterStarts, Function.iterate_succ_apply', ← afterStarts, startTable_of_create hcreate,
        shape_send_tuneStatements, hshape]
    refine ⟨_, execAll_createStatements_of_mem fun id hid ↦ ?_, hnext⟩
    rw [Catalog.map_id_eq_of_shape hnext]
    exact mem_of_mem_createdIds hid

end

/-! ## Creating and counting -/

/-- The count is as expected on the first start and on every later one. -/
def EveryStartVerifies (schema table : String) (hashPartitions : ℕ)
    (create tune : List (Ddl ParamValue)) : Prop :=
  ∀ n, (startTable schema [schema] table hashPartitions create tune
    (afterStarts schema table hashPartitions create tune n)).1 = .ok ()

theorem count_first (t : TuneConfig) (table : String) :
    (TableState.first t).count table = expectedCount t.hashPartitions ↔
      t.hashPartitions ≤ 1 ∨ foldName table = table := by
  by_cases hN : t.hashPartitions ≤ 1
  · simp [TableState.first, TableState.count, expectedCount, hN]
  · by_cases hname : foldName table = table
    · simp [TableState.first, TableState.count, expectedCount, hN, hname]
    · have hne : 0 ≠ t.hashPartitions := by omega
      simp [TableState.first, TableState.count, expectedCount, hN, hname, hne]

theorem startTable_afterStarts_ok_iff (t : TuneConfig) (schema table : String) (n : ℕ) :
    (startTable schema [schema] table t.hashPartitions (t.createStatements table)
      (t.tuneStatements table) (afterStarts schema table t.hashPartitions
        (t.createStatements table) (t.tuneStatements table) n)).1 = .ok () ↔
      t.hashPartitions ≤ 1 ∨ foldName table = table := by
  obtain ⟨c₁, hcreate, hshape⟩ := exists_created t schema table n
  rw [startTable_of_create hcreate, mapError_eq_ok_iff,
    Catalog.partitionCount_eq_of_shape hshape, partitionCount_catalog,
    verifyPartitionCount_ok_iff, count_first]

/-- **Creating a table and verifying it agree** exactly if the table has no partitions or a name
that folding does not change. -/
theorem everyStartVerifies_iff {t : TuneConfig} {table : String} {create : List (Ddl ParamValue)}
    (h : t.createTableSql table = some create) (schema : String) :
    EveryStartVerifies schema table t.hashPartitions create (t.tuneStatements table) ↔
      t.hashPartitions ≤ 1 ∨ foldName table = table := by
  obtain rfl := createTableSql_eq_some h
  constructor
  · intro hall
    exact (startTable_afterStarts_ok_iff t schema table 0).mp (hall 0)
  · intro hcond n
    exact (startTable_afterStarts_ok_iff t schema table n).mpr hcond

/-- The default parameters, and two partitions. -/
def twoPartitions : TuneConfig := { (default : TuneConfig) with hashPartitions := 2 }

theorem createTableSql_twoPartitions :
    twoPartitions.createTableSql "kv" = some (twoPartitions.createStatements "kv") :=
  if_pos (by decide +kernel)

theorem tuneTableSql_twoPartitions :
    twoPartitions.tuneTableSql "kv" = some (twoPartitions.tuneStatements "kv") :=
  if_pos (by decide +kernel)

/-- A name in lower case: the two partitions are counted. -/
theorem everyStartVerifies_kv :
    EveryStartVerifies "public" "kv" 2 (twoPartitions.createStatements "kv")
      (twoPartitions.tuneStatements "kv") :=
  (everyStartVerifies_iff createTableSql_twoPartitions "public").mpr (Or.inr (by decide +kernel))

/-- A name with a capital letter: the table just created is reported as not partitioned. -/
theorem not_everyStartVerifies_mixedCase :
    twoPartitions.createTableSql "Kv" = some (twoPartitions.createStatements "Kv") ∧
      ¬EveryStartVerifies "public" "Kv" 2 (twoPartitions.createStatements "Kv")
        (twoPartitions.tuneStatements "Kv") := by
  refine ⟨if_pos (by decide +kernel), fun hall ↦ ?_⟩
  have hcond := (startTable_afterStarts_ok_iff twoPartitions "public" "Kv" 0).mp (hall 0)
  exact absurd hcond (by decide +kernel)

/-! ## Refusals -/

/-- The parameters the tuning sets are set. -/
def TuneConfig.Settled (t : TuneConfig) (a : Attrs ParamValue) : Prop :=
  a.storage = t.toastStorage ∧
    ∀ p ∈ t.storageOptions ++ t.autovacuumOptions, a.options p.1 = some p.2

theorem withStorage_eq_self_iff {storage : String} {a : Attrs ParamValue} :
    withStorage storage a = a ↔ a.storage = storage :=
  ⟨fun h ↦ (congrArg Attrs.storage h).symm, fun h ↦ h ▸ rfl⟩

/-- Tuning that has nothing to change changes nothing, and conversely. -/
theorem tuned_eq_self_iff {t : TuneConfig} {a : Attrs ParamValue} :
    t.tuned a = a ↔ t.Settled a := by
  have hnodup : ((t.storageOptions ++ t.autovacuumOptions).map Prod.fst).Nodup := by
    simp [storageOptions, autovacuumOptions]
  have htuned : t.tuned a = withStorage t.toastStorage
      (Catalog.withOptions (t.storageOptions ++ t.autovacuumOptions) a) := by
    rw [Catalog.withOptions, List.foldl_append]
    rfl
  rw [htuned, TuneConfig.Settled, ← Catalog.withOptions_eq_self_iff hnodup]
  constructor
  · intro h
    exact ⟨(congrArg Attrs.storage h).symm, congrArg (fun b ↦ { b with storage := a.storage }) h⟩
  · rintro ⟨hstorage, hoptions⟩
    rw [hoptions]
    exact withStorage_eq_self_iff.mpr hstorage

/-- The tuning has nothing to change in a table that is partitioned. -/
def TuneConfig.AllSettled (t : TuneConfig) (a : Attrs ParamValue) (cs : List (Attrs ParamValue)) :
    Prop :=
  a.storage = t.toastStorage ∧ (∀ c ∈ cs, c.storage = t.toastStorage) ∧
    ∀ c ∈ cs.take t.hashPartitions, t.Settled c

theorem partitionedCatalog_inj {schema table : String} {m : ℕ} {a a' : Attrs ParamValue}
    {cs cs' : List (Attrs ParamValue)} :
    partitionedCatalog schema table m a cs = partitionedCatalog schema table m a' cs' ↔
      a = a' ∧ cs = cs' := by
  constructor
  · intro h
    have hrels := congrArg Catalog.rels h
    rw [rels_partitionedCatalog, rels_partitionedCatalog, List.cons.injEq] at hrels
    have hattrs : ∀ cs : List (Attrs ParamValue),
        (cs.mapIdx (childRelation schema table m)).map Relation.attrs = cs := by
      intro cs
      exact List.ext_getElem (by simp) fun j h₁ h₂ ↦ by simp [childRelation]
    exact ⟨congrArg Relation.attrs hrels.1, by rw [← hattrs cs, hrels.2, hattrs]⟩
  · rintro ⟨rfl, rfl⟩
    rfl

theorem tuned_children_eq_self_iff {t : TuneConfig} {cs : List (Attrs ParamValue)} :
    ((cs.map (withStorage t.toastStorage)).mapIdx fun j c ↦
      if j < t.hashPartitions then t.tuned c else c) = cs ↔
    (∀ c ∈ cs, c.storage = t.toastStorage) ∧ ∀ c ∈ cs.take t.hashPartitions, t.Settled c := by
  -- the strategy is set twice for the children the tuning names
  have hget : ∀ j (h : j < cs.length),
      (if j < t.hashPartitions then t.tuned (withStorage t.toastStorage cs[j])
        else withStorage t.toastStorage cs[j]) = cs[j] ↔
      cs[j].storage = t.toastStorage ∧ (j < t.hashPartitions → t.Settled cs[j]) := by
    intro j hj
    split_ifs with h
    · have htwice : t.tuned (withStorage t.toastStorage cs[j]) = t.tuned cs[j] := rfl
      rw [htwice, tuned_eq_self_iff]
      exact ⟨fun hs ↦ ⟨hs.1, fun _ ↦ hs⟩, fun hs ↦ hs.2 h⟩
    · rw [withStorage_eq_self_iff]
      exact ⟨fun hs ↦ ⟨hs, fun hlt ↦ absurd hlt h⟩, And.left⟩
  constructor
  · intro heq
    have hat : ∀ j (h : j < cs.length),
        cs[j].storage = t.toastStorage ∧ (j < t.hashPartitions → t.Settled cs[j]) := by
      intro j hj
      apply (hget j hj).mp
      have hj' := List.getElem_of_eq heq (i := j) (by simpa using hj)
      rwa [List.getElem_mapIdx, List.getElem_map] at hj'
    constructor
    · intro c hc
      obtain ⟨j, hj, rfl⟩ := List.mem_iff_getElem.mp hc
      exact (hat j hj).1
    · intro c hc
      obtain ⟨j, hj, rfl⟩ := List.mem_iff_getElem.mp hc
      rw [List.length_take, lt_min_iff] at hj
      rw [List.getElem_take]
      exact (hat j hj.2).2 hj.1
  · rintro ⟨hall, htake⟩
    refine List.ext_getElem (by simp) fun j h₁ h₂ ↦ ?_
    rw [List.getElem_mapIdx, List.getElem_map, hget j h₂]
    refine ⟨hall _ (List.getElem_mem h₂), fun hlt ↦ htake _ ?_⟩
    exact List.mem_take_iff_getElem.mpr ⟨j, lt_min hlt h₂, rfl⟩

/-- Where a refused start leaves a state as it was, if there are to be partitions: it is refused by
the first message, or it is not refused, or the tuning has nothing to change. -/
def TableState.RefusalHarmless (t : TuneConfig) (table : String) : TableState → Prop
  | .absent => foldName table = table
  | .plain _ => True
  | .partitioned a cs =>
    0 < cs.length ∧ cs.length < t.hashPartitions ∨
      cs.length ≤ t.hashPartitions ∧ foldName table = table ∨
        t.hashPartitions ≤ cs.length ∧ t.AllSettled a cs

/-- A start that refuses the layout of `σ` leaves the catalog as it was. -/
def RefusalChangesNothing (schema table : String) (hashPartitions : ℕ)
    (create tune : List (Ddl ParamValue)) (σ : TableState) : Prop :=
  ∀ e c, startTable schema [schema] table hashPartitions create tune (σ.catalog schema table) =
    (.error e, c) → c = σ.catalog schema table

section

variable {t : TuneConfig} {schema table : String} {σ : TableState}

theorem refusalChangesNothing_of_refused {e : DdlError} (h : σ.created t table = .error e) :
    RefusalChangesNothing schema table t.hashPartitions (t.createStatements table)
      (t.tuneStatements table) σ := by
  have hcreate : (σ.catalog schema table).execAll schema [schema] (t.createStatements table) =
      .error e := by
    rw [execAll_createStatements, h]
    rfl
  intro e' c hstart
  rw [startTable_of_refused hcreate] at hstart
  exact (Prod.mk.inj hstart).2.symm

/-- Past the first message, a start is refused for the count, after the tuning. -/
theorem refusalChangesNothing_of_created {σ' : TableState} (h : σ.created t table = .ok σ') :
    RefusalChangesNothing schema table t.hashPartitions (t.createStatements table)
        (t.tuneStatements table) σ ↔
      σ'.count table = expectedCount t.hashPartitions ∨
        ((σ'.catalog schema table).send schema [schema] (t.tuneStatements table)).2 =
          σ.catalog schema table := by
  have hcreate : (σ.catalog schema table).execAll schema [schema] (t.createStatements table) =
      .ok (σ'.catalog schema table) := by
    rw [execAll_createStatements, h]
    rfl
  rw [RefusalChangesNothing, startTable_of_create hcreate, partitionCount_catalog,
    ← @verifyPartitionCount_ok_iff table]
  constructor
  · intro hall
    cases hverify : verifyPartitionCount table t.hashPartitions (σ'.count table) with
    | ok u => exact Or.inl rfl
    | error e =>
      rw [hverify] at hall
      exact Or.inr (hall _ _ rfl)
  · rintro (hverify | hsame) e c hstart
    · rw [hverify] at hstart
      exact nomatch (Prod.mk.inj hstart).1
    · rw [← hsame]
      exact (Prod.mk.inj hstart).2.symm

/-- Without partitions nothing is refused but the tuning, and that changes nothing then. -/
theorem refusalChangesNothing_of_le (hN : t.hashPartitions ≤ 1) :
    RefusalChangesNothing schema table t.hashPartitions (t.createStatements table)
      (t.tuneStatements table) σ := by
  cases σ with
  | absent =>
    have h : TableState.absent.created t table = .ok (.first t) := rfl
    rw [refusalChangesNothing_of_created h]
    exact Or.inl ((count_first t table).mpr (Or.inl hN))
  | plain a =>
    have h : (TableState.plain a).created t table = .ok (.plain a) := if_pos hN
    rw [refusalChangesNothing_of_created h, expectedCount, if_pos hN]
    exact Or.inl rfl
  | partitioned a cs =>
    have h : (TableState.partitioned a cs).created t table = .ok (.partitioned a cs) :=
      if_pos (Or.inl hN)
    rw [refusalChangesNothing_of_created h, TableState.catalog, Catalog.send,
      execAll_tuneStatements_of_le hN]
    exact Or.inr rfl

theorem send_tune_ne_of_length {c c' : Catalog ParamValue} (h : c'.rels.length < c.rels.length) :
    (c.send schema [schema] (t.tuneStatements table)).2 ≠ c' := by
  intro heq
  have hshape : (c.send schema [schema] (t.tuneStatements table)).2.shape = c.shape :=
    shape_send_tuneStatements c
  rw [heq] at hshape
  have hlen := congrArg List.length hshape
  rw [Catalog.shape, Catalog.shape, List.length_map, List.length_map] at hlen
  omega

section

variable {a : Attrs ParamValue} {cs : List (Attrs ParamValue)}

/-- Where every child is there, the tuning decides, unless the count is right. -/
theorem refusalChangesNothing_of_complete (hN : 1 < t.hashPartitions)
    (hle : t.hashPartitions ≤ cs.length) :
    RefusalChangesNothing schema table t.hashPartitions (t.createStatements table)
        (t.tuneStatements table) (.partitioned a cs) ↔
      (TableState.partitioned a cs).RefusalHarmless t table := by
  have hexpected : expectedCount t.hashPartitions = t.hashPartitions := if_neg hN.not_ge
  have h : (TableState.partitioned a cs).created t table = .ok (.partitioned a cs) :=
    if_pos (Or.inr hle)
  have hcount : (TableState.partitioned a cs).count table = t.hashPartitions ↔
      cs.length ≤ t.hashPartitions ∧ foldName table = table := by
    rw [TableState.count]
    split_ifs with hname
    · constructor
      · intro hlen
        exact ⟨hlen.le, hname⟩
      · intro hlen
        exact le_antisymm hlen.1 hle
    · constructor
      · intro hlen
        omega
      · intro hlen
        exact absurd hlen.2 hname
  have htuned : ((partitionedCatalog schema table cs.length a cs).send schema [schema]
      (t.tuneStatements table)).2 = partitionedCatalog schema table cs.length a cs ↔
        t.AllSettled a cs := by
    rw [Catalog.send, execAll_tuneStatements hN hle]
    dsimp only
    rw [partitionedCatalog_inj, withStorage_eq_self_iff, tuned_children_eq_self_iff,
      TuneConfig.AllSettled]
  have hall : ¬(0 < cs.length ∧ cs.length < t.hashPartitions) :=
    fun hlt ↦ absurd hlt.2 hle.not_gt
  rw [TableState.RefusalHarmless, refusalChangesNothing_of_created h, hexpected, hcount,
    TableState.catalog, htuned, or_iff_right hall, and_iff_right hle]

/-- A parent without children gets them, and is refused only under another name. -/
theorem refusalChangesNothing_of_childless (hN : 1 < t.hashPartitions) :
    RefusalChangesNothing schema table t.hashPartitions (t.createStatements table)
        (t.tuneStatements table) (.partitioned a []) ↔
      (TableState.partitioned a []).RefusalHarmless t table := by
  have hexpected : expectedCount t.hashPartitions = t.hashPartitions := if_neg hN.not_ge
  have hnone : ¬t.hashPartitions ≤ ([] : List (Attrs ParamValue)).length :=
    Nat.not_le.mpr (zero_lt_one.trans hN)
  have h : (TableState.partitioned a []).created t table =
      .ok (.partitioned a (List.replicate t.hashPartitions (freshChild a))) := by
    rw [TableState.created, if_neg (not_or.mpr ⟨hN.not_ge, hnone⟩), if_pos rfl]
  have hcreated : ((TableState.partitioned a []).catalog schema table).rels.length <
      ((TableState.partitioned a (List.replicate t.hashPartitions (freshChild a))).catalog
        schema table).rels.length := by
    rw [catalog_partitioned_replicate, rels_partitionedCatalog, List.length_cons,
      List.length_mapIdx, List.length_replicate]
    exact Nat.succ_lt_succ (zero_lt_one.trans hN)
  have hcount : (TableState.partitioned a
      (List.replicate t.hashPartitions (freshChild a))).count table = t.hashPartitions ↔
        foldName table = table := by
    rw [TableState.count, List.length_replicate]
    split_ifs with hname
    · exact iff_of_true rfl hname
    · exact iff_of_false (by omega) hname
  rw [TableState.RefusalHarmless, refusalChangesNothing_of_created h, hexpected, hcount,
    or_iff_left (send_tune_ne_of_length hcreated)]
  have hne : t.hashPartitions ≠ 0 := by omega
  simp [hne]

end

theorem refusalChangesNothing_of_lt (hN : 1 < t.hashPartitions) :
    RefusalChangesNothing schema table t.hashPartitions (t.createStatements table)
        (t.tuneStatements table) σ ↔ σ.RefusalHarmless t table := by
  cases σ with
  | absent =>
    have h : TableState.absent.created t table = .ok (.first t) := rfl
    have hexpected : expectedCount t.hashPartitions = t.hashPartitions := if_neg hN.not_ge
    have hcreated : (TableState.absent.catalog schema table).rels.length <
        ((TableState.first t).catalog schema table).rels.length := by
      rw [TableState.first, if_neg hN.not_ge]
      exact Nat.succ_pos _
    rw [refusalChangesNothing_of_created h, count_first, TableState.RefusalHarmless,
      or_iff_left (send_tune_ne_of_length hcreated), or_iff_right hN.not_ge]
  | plain a =>
    have h : (TableState.plain a).created t table = .error (.notPartitioned table) :=
      if_neg hN.not_ge
    exact iff_of_true (refusalChangesNothing_of_refused h) trivial
  | partitioned a cs =>
    by_cases hle : t.hashPartitions ≤ cs.length
    · exact refusalChangesNothing_of_complete hN hle
    · by_cases hcs : cs = []
      · rw [hcs]
        exact refusalChangesNothing_of_childless hN
      · -- the first missing child is refused
        have hpos : 0 < cs.length := List.length_pos_iff.mpr hcs
        have h : (TableState.partitioned a cs).created t table =
            .error (.boundConflict (partitionName table cs.length)) := by
          rw [TableState.created, if_neg (not_or.mpr ⟨hN.not_ge, hle⟩), if_neg hcs]
        rw [TableState.RefusalHarmless]
        exact iff_of_true (refusalChangesNothing_of_refused h)
          (Or.inl ⟨hpos, not_le.mp hle⟩)

end

/-- **A refused start changes nothing** exactly if there are to be no partitions, or the state is
one in which the first message is refused, or the count is right, or the tuning finds nothing to
change. -/
theorem refusalChangesNothing_iff {t : TuneConfig} {table : String}
    {create tune : List (Ddl ParamValue)} (h : t.createTableSql table = some create)
    (h' : t.tuneTableSql table = some tune) (schema : String) (σ : TableState) :
    RefusalChangesNothing schema table t.hashPartitions create tune σ ↔
      t.hashPartitions ≤ 1 ∨ σ.RefusalHarmless t table := by
  obtain rfl := createTableSql_eq_some h
  obtain rfl := tuneTableSql_eq_some h'
  by_cases hN : t.hashPartitions ≤ 1
  · exact iff_of_true (refusalChangesNothing_of_le hN) (Or.inl hN)
  · rw [refusalChangesNothing_of_lt (not_le.mp hN), or_iff_right hN]

/-- A plain table where two partitions are configured. -/
theorem refusalChangesNothing_plain :
    RefusalChangesNothing "public" "kv" 2 (twoPartitions.createStatements "kv")
      (twoPartitions.tuneStatements "kv") (.plain (Catalog.freshAttrs false "extended")) :=
  (refusalChangesNothing_iff createTableSql_twoPartitions tuneTableSql_twoPartitions "public"
    (.plain (Catalog.freshAttrs false "extended"))).mpr (Or.inr trivial)

/-- Three partitions where two are configured: the count is refused after two of them, and the
parent, have been tuned. -/
theorem not_refusalChangesNothing_threePartitions :
    ¬RefusalChangesNothing "public" "kv" 2 (twoPartitions.createStatements "kv")
      (twoPartitions.tuneStatements "kv")
      (.partitioned (Catalog.freshAttrs false "extended")
        (List.replicate 3 (freshChild (Catalog.freshAttrs false "extended")))) := by
  intro h
  have htwo : 1 < twoPartitions.hashPartitions := by decide
  rcases (refusalChangesNothing_of_lt htwo).mp h with ⟨-, hlt⟩ | ⟨hle, -⟩ | ⟨-, hstorage, -⟩
  · exact absurd hlt (by decide)
  · exact absurd hle (by decide)
  · exact absurd hstorage (by decide)

/-! ## Persistence -/

/-- On an empty catalog the `CREATE` text goes through, and the relations that store rows are
unlogged exactly if that was asked for. -/
def PersistenceReaches (schema : String) (create : List (Ddl ParamValue)) (useUnlogged : Bool) :
    Prop :=
  ((∅ : Catalog ParamValue).send schema [schema] create).1 = .ok () ∧
    ∀ r ∈ ((∅ : Catalog ParamValue).send schema [schema] create).2.rels,
      r.partitioned = false → (r.attrs.unlogged = true ↔ useUnlogged = true)

theorem persistenceReaches_createStatements_iff (t : TuneConfig) (schema table : String) :
    PersistenceReaches schema (t.createStatements table) t.useUnlogged ↔
      t.hashPartitions ≤ 1 ∨ t.useUnlogged = false := by
  have hcreate : (∅ : Catalog ParamValue).execAll schema [schema] (t.createStatements table) =
      .ok ((TableState.first t).catalog schema table) := execAll_createStatements t .absent
  rw [PersistenceReaches, Catalog.send, hcreate]
  dsimp only
  rw [TableState.first]
  split_ifs with hN
  · -- the one table has the persistence that is written
    refine iff_of_true ⟨rfl, ?_⟩ (Or.inl hN)
    intro r hr _
    rw [List.mem_singleton.mp hr]
    rfl
  · rw [catalog_partitioned_replicate, or_iff_right hN]
    constructor
    · rintro ⟨-, hall⟩
      have hpos : 0 < (List.replicate t.hashPartitions
          (freshChild (Catalog.freshAttrs t.useUnlogged "extended"))).length := by
        rw [List.length_replicate]
        omega
      have hchild := hall _ (mem_partitionedCatalog.mpr (Or.inr ⟨0, hpos, rfl⟩)) rfl
      rw [List.getElem_replicate] at hchild
      -- the statement of a child does not say UNLOGGED
      exact Bool.eq_false_iff.mpr fun hu ↦ Bool.false_ne_true (hchild.mpr hu)
    · intro hlogged
      refine ⟨rfl, fun r hr hstores ↦ ?_⟩
      rcases mem_partitionedCatalog.mp hr with rfl | ⟨i, hi, rfl⟩
      · exact absurd hstores Bool.noConfusion
      · rw [List.getElem_replicate, hlogged]
        exact iff_of_false Bool.false_ne_true Bool.false_ne_true

/-- **The persistence asked for reaches the tables that store rows** exactly if there is one table,
or none is to be unlogged. -/
theorem persistenceReaches_iff {t : TuneConfig} {table : String} {create : List (Ddl ParamValue)}
    (h : t.createTableSql table = some create) (schema : String) :
    PersistenceReaches schema create t.useUnlogged ↔
      t.hashPartitions ≤ 1 ∨ t.useUnlogged = false := by
  obtain rfl := createTableSql_eq_some h
  exact persistenceReaches_createStatements_iff t schema table

/-- One unlogged table. -/
theorem persistenceReaches_one :
    PersistenceReaches "public"
      ({ (default : TuneConfig) with useUnlogged := true }.createStatements "kv") true :=
  (persistenceReaches_iff (t := { (default : TuneConfig) with useUnlogged := true })
    (if_pos (by decide +kernel)) "public").mpr (Or.inl le_rfl)

/-- Two partitions of an unlogged table. -/
theorem not_persistenceReaches_twoPartitions :
    { twoPartitions with useUnlogged := true }.createTableSql "kv" =
        some ({ twoPartitions with useUnlogged := true }.createStatements "kv") ∧
      ¬PersistenceReaches "public"
        ({ twoPartitions with useUnlogged := true }.createStatements "kv") true := by
  refine ⟨if_pos (by decide +kernel), fun h ↦ ?_⟩
  have hcond := (persistenceReaches_createStatements_iff
    { twoPartitions with useUnlogged := true } "public" "kv").mp h
  exact absurd hcond (by decide)

end SurrealPg
