import SurrealPg.Schema.Layout

/-!
# The partitions and their tuning

A configuration with two or more partitions writes two scripts about them, each in a loop of its
own: one creates a parent and the children, the other tunes the children. The name check before
both looks at the last child only. What a script says is read off its statements here, without
regard to the loop that wrote it, and compared with what it should say: every remainder has its
child, no two relations have one name, also after the server has folded the names, no name is cut
off, and the second script is about the relations of the first.
-/

namespace SurrealPg

open Postgres TuneConfig

/-! ## The size of a name -/

theorem utf8ByteSize_ofList (cs : List Char) :
    (String.ofList cs).utf8ByteSize = (cs.map Char.utf8Size).sum := by
  induction cs with
  | nil => simp
  | cons c cs ih =>
    have hsplit : String.ofList (c :: cs) = String.singleton c ++ String.ofList cs := by
      rw [String.singleton_eq_ofList, ← String.ofList_append]
      rfl
    rw [hsplit, String.utf8ByteSize_append, String.utf8ByteSize_singleton, ih, List.map_cons,
      List.sum_cons]

theorem utf8Size_of_ascii {c : Char} (h : c.val ≤ 127) : c.utf8Size = 1 := if_pos h

theorem utf8Size_toLower (c : Char) : c.toLower.utf8Size = c.utf8Size := by
  by_cases h : c.val ≥ 'A'.val ∧ c.val ≤ 'Z'.val
  · have hval : c.toLower.val = c.val + ('a'.val - 'A'.val) := congrArg Char.val (dif_pos h)
    have h32 : ('a'.val - 'A'.val).toNat = 32 := by decide
    have h127 : (127 : UInt32).toNat = 127 := by decide
    have hle : c.val.toNat ≤ 90 := UInt32.le_iff_toNat_le.mp h.2
    have hupper : c.val ≤ 127 := by
      rw [UInt32.le_iff_toNat_le]
      omega
    have hlower : c.toLower.val ≤ 127 := by
      rw [hval, UInt32.le_iff_toNat_le, UInt32.toNat_add]
      omega
    exact (utf8Size_of_ascii hlower).trans (utf8Size_of_ascii hupper).symm
  · have hsame : c.toLower = c := dif_neg h
    rw [hsame]

theorem utf8ByteSize_foldName (name : String) :
    (foldName name).utf8ByteSize = name.utf8ByteSize := by
  have hname : name.utf8ByteSize = (name.toList.map Char.utf8Size).sum := by
    rw [← utf8ByteSize_ofList, String.ofList_toList]
  have hsize : Char.utf8Size ∘ Char.toLower = Char.utf8Size := funext utf8Size_toLower
  rw [foldName, utf8ByteSize_ofList, List.map_map, hsize, hname]

theorem utf8Size_of_isDigit {c : Char} (h : c.isDigit = true) : c.utf8Size = 1 := by
  rw [Char.isDigit, Bool.and_eq_true, decide_eq_true_iff, decide_eq_true_iff] at h
  exact utf8Size_of_ascii (UInt32.le_trans h.2 (by decide))

theorem utf8ByteSize_toString (n : ℕ) : (toString n).utf8ByteSize = (toString n).length := by
  have hones : (natText n).map Char.utf8Size = List.replicate (natText n).length 1 := by
    rw [← List.map_const']
    exact List.map_congr_left fun c hc ↦ utf8Size_of_isDigit (isDigit_of_mem_natText hc)
  have hlist : toString n = String.ofList (natText n) := String.ofList_toList.symm
  rw [hlist, utf8ByteSize_ofList, hones, List.sum_replicate_nat, Nat.mul_one,
    String.length_ofList]

theorem length_toString_mono {m n : ℕ} (h : m ≤ n) :
    (toString m).length ≤ (toString n).length := by
  have hpos : 0 < (toString n).length := Nat.length_repr_pos
  have hlt : n < 10 ^ (toString n).length := (Nat.length_repr_le_iff hpos).mp le_rfl
  exact (Nat.length_repr_le_iff hpos).mpr (h.trans_lt hlt)

/-- **The check of the last name** is a check of all. -/
theorem utf8ByteSize_partitionName_le {t : TuneConfig} {table : String} {i : ℕ}
    (h : t.validatePartitionNames table = true) (hN : 1 < t.hashPartitions)
    (hi : i < t.hashPartitions) : (partitionName table i).utf8ByteSize ≤ 63 := by
  have hlast : t.lastPartitionLength table ≤ 63 := by
    simpa [validatePartitionNames, hN.not_ge] using h
  have hdigits := length_toString_mono (Nat.le_sub_one_of_lt hi)
  have hp : ("_p" : String).utf8ByteSize = 2 := by decide
  rw [lastPartitionLength] at hlast
  rw [partitionName, String.utf8ByteSize_append, String.utf8ByteSize_append, hp,
    utf8ByteSize_toString]
  omega

/-! ## What a script says -/

/-- A partition as its statement declares it. -/
structure Child where
  name : String
  parent : String
  modulus : ℕ
  remainder : ℕ

namespace Script

/-- The table a statement creates, and whether `PARTITION BY HASH (key)`. -/
def tableOf : Ddl ParamValue → Option (String × Bool)
  | .createTable name _ partitioned => some (name, partitioned)
  | _ => none

def childOf : Ddl ParamValue → Option Child
  | .createPartition name parent _ modulus remainder => some ⟨name, parent, modulus, remainder⟩
  | _ => none

/-- What an `ALTER TABLE .. SET (..)` sets, and where. -/
def optionsOf : Ddl ParamValue → Option (String × List (String × ParamValue))
  | .setOptions name options => some (name, options)
  | _ => none

/-- What an `ALTER TABLE .. ALTER COLUMN val SET STORAGE ..` sets, and where. -/
def storageOf : Ddl ParamValue → Option (String × String)
  | .setStorage name storage => some (name, storage)
  | _ => none

/-- The relation a statement creates or alters. -/
def subject : Ddl ParamValue → String
  | .createTable name _ _ | .createPartition name _ _ _ _ | .setOptions name _
  | .setStorage name _ => name

variable (ss : List (Ddl ParamValue))

def tables : List (String × Bool) := ss.filterMap tableOf

def children : List Child := ss.filterMap childOf

def optionsSet : List (String × List (String × ParamValue)) := ss.filterMap optionsOf

def storageSet : List (String × String) := ss.filterMap storageOf

end Script

open Script

/-- The script creates `table`, partitioned, with `n` children that leave no key out. -/
structure CreatesPartitions (table : String) (n : ℕ) (ss : List (Ddl ParamValue)) : Prop where
  parent : tables ss = [(table, true)]
  length : (children ss).length = n
  /-- There is nothing else in the script. -/
  only : ss.length = n + 1
  nodup : ((children ss).map Child.name).Nodup
  nodup_folded : ((children ss).map fun p ↦ foldName p.name).Nodup
  ne_parent : ∀ p ∈ children ss, p.name ≠ table ∧ foldName p.name ≠ foldName table
  fits : ∀ p ∈ children ss, p.name.utf8ByteSize ≤ 63 ∧ (foldName p.name).utf8ByteSize ≤ 63
  bound : ∀ p ∈ children ss, p.parent = table ∧ p.modulus = n
  remainders : (children ss).map Child.remainder = List.range n
  covers : ∀ hash : ℕ, ∃! p, p ∈ children ss ∧ hash % p.modulus = p.remainder

/-- The script sets the storage and autovacuum parameters of `t` on the children and on nothing
else, and the storage strategy on `table` and the children. -/
structure TunesChildren (t : TuneConfig) (table : String) (ps : List Child)
    (ss : List (Ddl ParamValue)) : Prop where
  options : optionsSet ss =
    ps.flatMap fun p ↦ [(p.name, t.storageOptions), (p.name, t.autovacuumOptions)]
  storage : storageSet ss = (table, t.toastStorage) :: ps.map fun p ↦ (p.name, t.toastStorage)
  /-- There is nothing else in the script. -/
  only : ss.length = 3 * ps.length + 1
  not_parent : ∀ name options, .setOptions name options ∈ ss → foldName name ≠ foldName table

/-! ## The two loops -/

/-- The child of remainder `i`. -/
def declared (table : String) (n i : ℕ) : Child := ⟨partitionName table i, table, n, i⟩

theorem foldName_partitionName_injective (table : String) :
    Function.Injective fun i ↦ foldName (partitionName table i) :=
  fun _ _ h ↦ childId_injective "" table (congrArg (Prod.mk "") h)

theorem foldName_partitionName_ne (table : String) (i : ℕ) :
    foldName (partitionName table i) ≠ foldName table :=
  fun h ↦ childId_ne_tableId "" table i (congrArg (Prod.mk "") h)

section Loops

variable {t : TuneConfig} {table : String}

theorem children_createStatements (hN : 1 < t.hashPartitions) :
    children (t.createStatements table) =
      (List.range t.hashPartitions).map (declared table t.hashPartitions) := by
  rw [createStatements_of_lt hN, children, List.filterMap_cons_none rfl, List.filterMap_map]
  exact congrFun List.filterMap_eq_map _

theorem tables_createStatements (hN : 1 < t.hashPartitions) :
    tables (t.createStatements table) = [(table, true)] := by
  have hparent : tableOf (.createTable table t.useUnlogged true) = some (table, true) := rfl
  have hnone : ∀ i ∈ List.range t.hashPartitions,
      (tableOf ∘ createChild table t.hashPartitions) i = none := fun _ _ ↦ rfl
  rw [createStatements_of_lt hN, tables, List.filterMap_cons_some hparent, List.filterMap_map,
    List.filterMap_eq_nil_iff.mpr hnone]

theorem createsPartitions (hN : 1 < t.hashPartitions)
    (hnames : t.validatePartitionNames table = true) :
    CreatesPartitions table t.hashPartitions (t.createStatements table) := by
  have hchildren : children (t.createStatements table) = _ := children_createStatements hN
  have hmem : ∀ p, p ∈ children (t.createStatements table) ↔
      ∃ i < t.hashPartitions, declared table t.hashPartitions i = p := by
    simp [hchildren]
  have hfold : ((children (t.createStatements table)).map fun p ↦ foldName p.name).Nodup := by
    rw [hchildren, List.map_map]
    exact List.Nodup.map (foldName_partitionName_injective table) List.nodup_range
  refine ⟨tables_createStatements hN, by simp [hchildren], by simp [createStatements_of_lt hN], ?_,
    hfold, ?_, ?_, ?_, ?_, ?_⟩
  · refine List.Nodup.of_map foldName ?_
    rwa [List.map_map]
  -- no child has the name of the parent
  · rintro p hp
    obtain ⟨i, -, rfl⟩ := (hmem p).mp hp
    have hne := foldName_partitionName_ne table i
    exact ⟨fun h ↦ hne (congrArg foldName h), hne⟩
  -- the name checked is the longest, that of the last child
  · rintro p hp
    obtain ⟨i, hi, rfl⟩ := (hmem p).mp hp
    have hle := utf8ByteSize_partitionName_le hnames hN hi
    exact ⟨hle, (utf8ByteSize_foldName _).trans_le hle⟩
  · rintro p hp
    obtain ⟨i, -, rfl⟩ := (hmem p).mp hp
    exact ⟨rfl, rfl⟩
  · rw [hchildren, List.map_map]
    exact List.map_id _
  -- the child of a hash value is that of its remainder
  · intro hash
    refine ⟨declared table t.hashPartitions (hash % t.hashPartitions), ⟨?_, rfl⟩, ?_⟩
    · exact (hmem _).mpr ⟨_, Nat.mod_lt _ (by omega), rfl⟩
    · rintro p ⟨hp, hrem⟩
      obtain ⟨i, -, rfl⟩ := (hmem p).mp hp
      exact congrArg (declared table t.hashPartitions) hrem.symm

theorem tunesChildren (hN : 1 < t.hashPartitions) :
    TunesChildren t table (children (t.createStatements table)) (t.tuneStatements table) := by
  have hoptions : optionsSet (t.tuneStatements table) =
      (List.range t.hashPartitions).flatMap fun i ↦
        [(partitionName table i, t.storageOptions),
         (partitionName table i, t.autovacuumOptions)] := by
    rw [tuneStatements_of_lt hN, optionsSet, List.filterMap_cons_none rfl, List.filterMap_flatMap]
    rfl
  have hparent : storageOf (.setStorage table t.toastStorage) = some (table, t.toastStorage) := rfl
  refine ⟨?_, ?_, ?_, ?_⟩
  · rw [hoptions, children_createStatements hN, List.flatMap_map]
    rfl
  · rw [tuneStatements_of_lt hN, storageSet, List.filterMap_cons_some hparent,
      List.filterMap_flatMap, children_createStatements hN, List.map_map, List.map_eq_flatMap]
    rfl
  · rw [tuneStatements_of_lt hN, children_createStatements hN]
    simp [tuneRelation, List.length_flatMap, Nat.mul_comm]
  · intro name options hmem
    have hset : (name, options) ∈ optionsSet (t.tuneStatements table) :=
      List.mem_filterMap.mpr ⟨_, hmem, rfl⟩
    rw [hoptions] at hset
    obtain ⟨i, -, hi⟩ := List.mem_flatMap.mp hset
    have hname : name = partitionName table i := by
      rcases List.mem_pair.mp hi with h | h <;> exact (Prod.mk.inj h).1
    rw [hname]
    exact foldName_partitionName_ne table i

end Loops

/-! ## Both scripts of one configuration -/

/-- **Creating and tuning agree.** For a configuration and a name that `create_table_sql` accepts:
with two or more partitions it creates them completely, and `tune_table_sql` tunes exactly these;
with fewer both are about the table alone. The tuning script is written exactly where the values in
it pass their assertions. -/
theorem createTableSql_tuneTableSql (t : TuneConfig) (table : String)
    {create : List (Ddl ParamValue)} (h : t.createTableSql table = some create) :
    (2 ≤ t.hashPartitions → CreatesPartitions table t.hashPartitions create ∧
      ∀ tune, t.tuneTableSql table = some tune →
        TunesChildren t table (children create) tune) ∧
    (t.hashPartitions ≤ 1 → (∀ s ∈ create, subject s = table) ∧
      ∀ tune, t.tuneTableSql table = some tune → ∀ s ∈ tune, subject s = table) ∧
    ((∃ tune, t.tuneTableSql table = some tune) ↔ t.tableAsserts = true) := by
  rw [createTableSql] at h
  split_ifs at h with hpre
  obtain ⟨hvalid, hnames⟩ := hpre
  obtain rfl : t.createStatements table = create := Option.some.inj h
  have htune : ∀ tune, t.tuneTableSql table = some tune → tune = t.tuneStatements table := by
    intro tune htune
    rw [tuneTableSql] at htune
    split_ifs at htune
    exact (Option.some.inj htune).symm
  refine ⟨fun hN ↦ ⟨createsPartitions hN hnames, fun tune h ↦ ?_⟩, fun hN ↦ ⟨?_, fun tune h ↦ ?_⟩,
    ?_⟩
  · rw [htune tune h]
    exact tunesChildren hN
  · rw [createStatements_of_le hN]
    simp [subject]
  · rw [htune tune h, tuneStatements_of_le hN]
    simp [tuneRelation, subject]
  · simp [tuneTableSql, hvalid, hnames]

/-- The defaults, with four partitions. -/
private def fourPartitions : TuneConfig := { (default : TuneConfig) with hashPartitions := 4 }

theorem createTableSql_tuneTableSql_four :
    CreatesPartitions "kv" 4 (fourPartitions.createStatements "kv") ∧
      TunesChildren fourPartitions "kv" (children (fourPartitions.createStatements "kv"))
        (fourPartitions.tuneStatements "kv") := by
  have hcreate : fourPartitions.createTableSql "kv" =
      some (fourPartitions.createStatements "kv") := if_pos (by decide +kernel)
  have htune : fourPartitions.tuneTableSql "kv" = some (fourPartitions.tuneStatements "kv") :=
    if_pos (by decide +kernel)
  have h := (createTableSql_tuneTableSql fourPartitions "kv" hcreate).1 (by decide)
  exact ⟨h.1, h.2 _ htune⟩

/-- Tables are created for a fill factor that the tuning asserts against. -/
theorem not_tuneTableSql_of_createTableSql :
    ¬∀ (t : TuneConfig) (table : String) (create : List (Ddl ParamValue)),
      t.createTableSql table = some create → 2 ≤ t.hashPartitions →
        ∃ tune, t.tuneTableSql table = some tune ∧
          TunesChildren t table (children create) tune := by
  intro h
  have hcreate : ({ fourPartitions with fillfactor := 0 }).createTableSql "kv" =
      some (TuneConfig.createStatements _ "kv") := if_pos (by decide +kernel)
  obtain ⟨tune, htune, -⟩ := h _ _ _ hcreate (by decide)
  rw [tuneTableSql, if_neg (by decide +kernel)] at htune
  exact Option.some_ne_none _ htune.symm

end SurrealPg
