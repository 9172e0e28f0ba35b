import SurrealPg.Schema.Ddl
import Mathlib.Data.List.Range

/-!
# The layouts of the table

What a start can find under the configured name, in a schema of its own: nothing, a plain table, or
a parent with a child for each remainder. The data definition is followed on these states: a
`CREATE` of something that is there does nothing, a first missing child decides whether the rest
can be created, and the tuning changes the attributes of the children it names and the storage
strategy of all.
-/

namespace SurrealPg

open Postgres

/-- What there is under the configured name. -/
inductive TableState
  | absent
  | plain (a : Attrs ParamValue)
  /-- A parent, and its children in the order of their remainders. -/
  | partitioned (a : Attrs ParamValue) (children : List (Attrs ParamValue))

namespace TuneConfig

/-! ## Names -/

theorem toList_natText (n : ℕ) : natText n = Nat.toDigits 10 n := Nat.toList_repr

theorem natText_ne_nil (n : ℕ) : natText n ≠ [] := by
  rw [toList_natText]
  exact Nat.toDigits_ne_nil

theorem isDigit_of_mem_natText {n : ℕ} {c : Char} (h : c ∈ natText n) : c.isDigit = true := by
  rw [toList_natText] at h
  exact Nat.isDigit_of_mem_toDigits (by decide) (by decide) h

theorem natText_injective {m n : ℕ} (h : natText m = natText n) : m = n := by
  rw [toList_natText, toList_natText] at h
  rw [← Nat.ofDigitChars_ten_toDigits (n := m), h, Nat.ofDigitChars_ten_toDigits]

theorem toLower_of_isDigit {c : Char} (h : c.isDigit = true) : c.toLower = c := by
  refine dif_neg fun hupper ↦ ?_
  rw [Char.isDigit, Bool.and_eq_true, decide_eq_true_iff, decide_eq_true_iff] at h
  have h₁ := UInt32.le_trans hupper.1 h.2
  exact absurd h₁ (by decide)

theorem toList_foldName_partitionName (table : String) (i : ℕ) :
    (foldName (partitionName table i)).toList =
      (foldName table).toList ++ ('_' :: 'p' :: natText i) := by
  have hdigits : (natText i).map Char.toLower = natText i :=
    List.map_congr_left (fun c hc ↦ toLower_of_isDigit (isDigit_of_mem_natText hc)) |>.trans
      (List.map_id _)
  have hp : ("_p" : String).toList.map Char.toLower = ['_', 'p'] := by decide
  rw [foldName, foldName, partitionName, String.toList_ofList, String.toList_ofList,
    String.toList_append, String.toList_append, List.map_append, List.map_append, hp,
    List.append_assoc]
  exact congrArg _ (congrArg _ hdigits)

/-- The identity of the relation that a name written in the schema resolves to. -/
def tableId (schema table : String) : RelId := (schema, foldName table)

def childId (schema table : String) (i : ℕ) : RelId := tableId schema (partitionName table i)

theorem childId_injective (schema table : String) {i j : ℕ}
    (h : childId schema table i = childId schema table j) : i = j := by
  have hname := congrArg String.toList (Prod.mk.inj h).2
  rw [toList_foldName_partitionName, toList_foldName_partitionName,
    List.append_cancel_left_eq] at hname
  exact natText_injective (List.cons.inj (List.cons.inj hname).2).2

theorem childId_ne_tableId (schema table : String) (i : ℕ) :
    childId schema table i ≠ tableId schema table := by
  intro h
  have hlen := congrArg List.length (congrArg String.toList (Prod.mk.inj h).2)
  rw [toList_foldName_partitionName, List.length_append, List.length_cons] at hlen
  omega

end TuneConfig

open TuneConfig

/-! ## States as catalogs -/

section Catalogs

variable (schema table : String)

/-- The one table, or the parent. -/
def tableRelation (partitioned : Bool) (a : Attrs ParamValue) : Relation ParamValue :=
  ⟨tableId schema table, partitioned, none, a⟩

/-- The child of remainder `i` where there are `m` of them. -/
def childRelation (m i : ℕ) (a : Attrs ParamValue) : Relation ParamValue :=
  ⟨childId schema table i, false, some ⟨tableId schema table, m, i⟩, a⟩

/-- A parent and the children that have been made so far, all for the modulus `m`. -/
def partitionedCatalog (m : ℕ) (a : Attrs ParamValue) (cs : List (Attrs ParamValue)) :
    Catalog ParamValue where
  rels := tableRelation schema table true a :: cs.mapIdx (childRelation schema table m)
  unique := by
    have hids : (cs.mapIdx (childRelation schema table m)).map Relation.id =
        (List.range cs.length).map (childId schema table) := by
      refine List.ext_getElem (by simp) fun i h₁ h₂ ↦ ?_
      simp [childRelation]
    rw [List.map_cons, hids, List.nodup_cons]
    constructor
    · intro hmem
      obtain ⟨i, -, hi⟩ := List.mem_map.mp hmem
      exact childId_ne_tableId schema table i hi
    · exact List.Nodup.map (fun i j h ↦ childId_injective schema table h) List.nodup_range

/-- The catalog of a schema that holds the table in the state `σ` and nothing else. -/
def TableState.catalog : TableState → Catalog ParamValue
  | .absent => ∅
  | .plain a => ⟨[tableRelation schema table false a], List.nodup_singleton _⟩
  | .partitioned a cs => partitionedCatalog schema table cs.length a cs

variable {schema table}

theorem rels_partitionedCatalog {m : ℕ} {a : Attrs ParamValue} {cs : List (Attrs ParamValue)} :
    (partitionedCatalog schema table m a cs).rels =
      tableRelation schema table true a :: cs.mapIdx (childRelation schema table m) :=
  rfl

theorem mem_partitionedCatalog {m : ℕ} {a : Attrs ParamValue} {cs : List (Attrs ParamValue)}
    {r : Relation ParamValue} :
    r ∈ (partitionedCatalog schema table m a cs).rels ↔
      r = tableRelation schema table true a ∨
        ∃ i, ∃ h : i < cs.length, childRelation schema table m i cs[i] = r := by
  rw [partitionedCatalog, List.mem_cons, List.mem_mapIdx]

theorem find_table {m : ℕ} {a : Attrs ParamValue} {cs : List (Attrs ParamValue)} :
    (partitionedCatalog schema table m a cs).find (tableId schema table) =
      some (tableRelation schema table true a) :=
  Catalog.find_eq_some_iff.mpr ⟨mem_partitionedCatalog.mpr (Or.inl rfl), rfl⟩

theorem find_child {m i : ℕ} {a : Attrs ParamValue} {cs : List (Attrs ParamValue)}
    (h : i < cs.length) : (partitionedCatalog schema table m a cs).find (childId schema table i) =
      some (childRelation schema table m i cs[i]) :=
  Catalog.find_eq_some_iff.mpr ⟨mem_partitionedCatalog.mpr (Or.inr ⟨i, h, rfl⟩), rfl⟩

theorem childId_mem_iff {m i : ℕ} {a : Attrs ParamValue} {cs : List (Attrs ParamValue)} :
    childId schema table i ∈ (partitionedCatalog schema table m a cs).rels.map Relation.id ↔
      i < cs.length := by
  rw [List.mem_map]
  constructor
  · rintro ⟨r, hr, hid⟩
    rcases mem_partitionedCatalog.mp hr with rfl | ⟨j, hj, rfl⟩
    · exact absurd hid.symm (childId_ne_tableId schema table i)
    · rwa [← childId_injective schema table hid]
  · intro h
    exact ⟨_, mem_partitionedCatalog.mpr (Or.inr ⟨i, h, rfl⟩), rfl⟩

theorem tableId_mem {m : ℕ} {a : Attrs ParamValue} {cs : List (Attrs ParamValue)} :
    tableId schema table ∈ (partitionedCatalog schema table m a cs).rels.map Relation.id :=
  List.mem_map.mpr ⟨_, mem_partitionedCatalog.mpr (Or.inl rfl), rfl⟩

/-- The children, as `pg_inherits` has them. -/
theorem children_table {m : ℕ} {a : Attrs ParamValue} {cs : List (Attrs ParamValue)} :
    (partitionedCatalog schema table m a cs).children (tableId schema table) =
      cs.mapIdx (childRelation schema table m) := by
  rw [Catalog.children, partitionedCatalog, List.filter_cons_of_neg]
  · refine List.filter_eq_self.mpr fun r hr ↦ ?_
    obtain ⟨i, hi, rfl⟩ := List.mem_mapIdx.mp hr
    simp [childRelation]
  · simp [tableRelation]

/-! ## Counting -/

theorem partitionCount_partitionedCatalog (m : ℕ) (a : Attrs ParamValue)
    (cs : List (Attrs ParamValue)) (relname : String) :
    (partitionedCatalog schema table m a cs).partitionCount relname =
      if foldName table = relname then cs.length else 0 := by
  have hchildren : (cs.mapIdx (childRelation schema table m)).filter
      (fun r ↦ r.partitioned && r.id.2 == relname) = [] := by
    refine List.filter_eq_nil_iff.mpr fun r hr ↦ ?_
    obtain ⟨i, hi, rfl⟩ := List.mem_mapIdx.mp hr
    simp [childRelation]
  rw [Catalog.partitionCount, rels_partitionedCatalog, List.filter_cons, hchildren]
  by_cases h : foldName table = relname
  · have hkeep : ((tableRelation schema table true a).partitioned &&
        (tableRelation schema table true a).id.2 == relname) = true := by
      rw [← h]
      simp [tableRelation, tableId]
    rw [if_pos hkeep, if_pos h, List.map_singleton, List.sum_singleton]
    exact (congrArg List.length children_table).trans List.length_mapIdx
  · have hdrop : ¬((tableRelation schema table true a).partitioned &&
        (tableRelation schema table true a).id.2 == relname) = true := by
      simp [tableRelation, tableId, h]
    rw [if_neg hdrop, if_neg h, List.map_nil, List.sum_nil]

theorem partitionCount_of_not_partitioned {c : Catalog ParamValue}
    (h : ∀ r ∈ c.rels, r.partitioned = false) (relname : String) :
    c.partitionCount relname = 0 := by
  have hnil : c.rels.filter (fun r ↦ r.partitioned && r.id.2 == relname) = [] :=
    List.filter_eq_nil_iff.mpr fun r hr ↦ by simp [h r hr]
  rw [Catalog.partitionCount, hnil]
  rfl

/-! ## Creating -/

/-- The attributes of a child created under a parent with the attributes `a`. -/
def freshChild (a : Attrs ParamValue) : Attrs ParamValue := Catalog.freshAttrs false a.storage

/-- The statement for the child of remainder `i`. -/
def createChild (table : String) (m i : ℕ) : Ddl ParamValue :=
  .createPartition (partitionName table i) table false m i

theorem exec_createChild_of_lt {m n i : ℕ} {a : Attrs ParamValue} {cs : List (Attrs ParamValue)}
    (h : i < cs.length) :
    (partitionedCatalog schema table m a cs).exec schema [schema] (createChild table n i) =
      .ok (partitionedCatalog schema table m a cs) :=
  if_pos (childId_mem_iff.mpr h)

theorem mem_bounds {m : ℕ} {a : Attrs ParamValue} {cs : List (Attrs ParamValue)} {b : Bound} :
    b ∈ ((partitionedCatalog schema table m a cs).children
        (tableRelation schema table true a).id).filterMap Relation.bound ↔
      ∃ i < cs.length, b = ⟨tableId schema table, m, i⟩ := by
  have hid : (tableRelation schema table true a).id = tableId schema table := rfl
  rw [hid, children_table, List.mem_filterMap]
  constructor
  · rintro ⟨r, hr, hb⟩
    obtain ⟨i, hi, rfl⟩ := List.mem_mapIdx.mp hr
    exact ⟨i, hi, (Option.some.inj hb).symm⟩
  · rintro ⟨i, hi, rfl⟩
    exact ⟨_, List.mem_mapIdx.mpr ⟨i, hi, rfl⟩, rfl⟩

/-- What a `CREATE` of a missing child depends on. -/
theorem exec_createChild_of_le {m n i : ℕ} {a : Attrs ParamValue} {cs : List (Attrs ParamValue)}
    (h : cs.length ≤ i) :
    (partitionedCatalog schema table m a cs).exec schema [schema] (createChild table n i) =
      if i < n ∧ ∀ j < cs.length, Bound.conflicts ⟨tableId schema table, n, i⟩
          ⟨tableId schema table, m, j⟩ = false then
        .ok ((partitionedCatalog schema table m a cs).createIfNotExists
          (childRelation schema table n i (freshChild a)))
      else .error (.boundConflict (partitionName table i)) := by
  have habsent : ¬(schema, foldName (partitionName table i)) ∈
      (partitionedCatalog schema table m a cs).rels.map Relation.id :=
    fun hmem ↦ absurd (childId_mem_iff.mp hmem) h.not_gt
  have hfind : (partitionedCatalog schema table m a cs).find (schema, foldName table) =
      some (tableRelation schema table true a) := find_table
  rw [createChild, Catalog.exec, if_neg habsent, Catalog.resolve_singleton, hfind]
  dsimp only
  rw [if_neg (by simp [tableRelation])]
  refine if_congr (and_congr_right fun _ ↦ ?_) rfl rfl
  constructor
  · intro hall j hj
    exact hall _ (mem_bounds.mpr ⟨j, hj, rfl⟩)
  · intro hall b hb
    obtain ⟨j, hj, rfl⟩ := mem_bounds.mp hb
    exact hall j hj

theorem exec_createChild_next {m : ℕ} {a : Attrs ParamValue} {cs : List (Attrs ParamValue)}
    (h : cs.length < m) :
    (partitionedCatalog schema table m a cs).exec schema [schema] (createChild table m cs.length) =
      .ok (partitionedCatalog schema table m a (cs ++ [freshChild a])) := by
  have hfits : ∀ j < cs.length, Bound.conflicts ⟨tableId schema table, m, cs.length⟩
      ⟨tableId schema table, m, j⟩ = false := by
    intro j hj
    have hne : cs.length % m ≠ j % m := by
      rw [Nat.mod_eq_of_lt h, Nat.mod_eq_of_lt (hj.trans h)]
      exact hj.ne'
    simp [Bound.conflicts, hne]
  have habsent : (childRelation schema table m cs.length (freshChild a)).id ∉
      (partitionedCatalog schema table m a cs).rels.map Relation.id :=
    fun hmem ↦ absurd (childId_mem_iff.mp hmem) (lt_irrefl _)
  rw [exec_createChild_of_le le_rfl, if_pos ⟨h, hfits⟩]
  refine congrArg Except.ok (Catalog.ext ?_)
  rw [Catalog.rels_createIfNotExists habsent, rels_partitionedCatalog, rels_partitionedCatalog,
    List.mapIdx_concat, List.cons_append]

theorem exec_createChild_conflict {n : ℕ} {a : Attrs ParamValue} {cs : List (Attrs ParamValue)}
    (h₀ : 0 < cs.length) (h : cs.length < n) :
    (partitionedCatalog schema table cs.length a cs).exec schema [schema]
        (createChild table n cs.length) =
      .error (.boundConflict (partitionName table cs.length)) := by
  rw [exec_createChild_of_le le_rfl, if_neg]
  rintro ⟨-, hall⟩
  have hconflict := hall 0 h₀
  have hndvd : ¬n ∣ cs.length := Nat.not_dvd_of_pos_of_lt h₀ h
  -- either the moduli do not divide each other, or the new remainder is 0 modulo the old modulus
  simp [Bound.conflicts, hndvd, min_eq_right h.le] at hconflict

theorem exec_createChild_plain {n : ℕ} {a : Attrs ParamValue} :
    ((TableState.plain a).catalog schema table).exec schema [schema] (createChild table n 0) =
      .error (.notPartitioned table) := by
  have habsent : ¬(schema, foldName (partitionName table 0)) ∈
      ((TableState.plain a).catalog schema table).rels.map Relation.id := by
    intro hmem
    obtain ⟨r, hr, hid⟩ := List.mem_map.mp hmem
    rw [List.mem_singleton.mp hr] at hid
    exact childId_ne_tableId schema table 0 hid.symm
  have hfind : ((TableState.plain a).catalog schema table).find (schema, foldName table) =
      some (tableRelation schema table false a) :=
    Catalog.find_eq_some_iff.mpr ⟨List.mem_singleton_self _, rfl⟩
  rw [createChild, Catalog.exec, if_neg habsent, Catalog.resolve_singleton, hfind]
  rfl

theorem execAll_createChildren {m n : ℕ} (h : n ≤ m) (a : Attrs ParamValue) :
    (partitionedCatalog schema table m a []).execAll schema [schema]
        ((List.range n).map (createChild table m)) =
      .ok (partitionedCatalog schema table m a (List.replicate n (freshChild a))) := by
  induction n with
  | zero => rfl
  | succ n ih =>
    rw [List.range_succ, List.map_append, Catalog.execAll_append, ih (by omega), Except.bind,
      List.map_singleton, Catalog.execAll]
    have hshort : (List.replicate n (freshChild a)).length < m := by
      rw [List.length_replicate]
      omega
    have hnext : (partitionedCatalog schema table m a (List.replicate n (freshChild a))).exec schema
        [schema] (createChild table m (List.replicate n (freshChild a)).length) = _ :=
      exec_createChild_next hshort
    rw [List.length_replicate] at hnext
    rw [hnext, List.replicate_succ']
    rfl

theorem execAll_createChildren_of_le {m n k : ℕ} {a : Attrs ParamValue}
    {cs : List (Attrs ParamValue)} (h : k ≤ cs.length) :
    (partitionedCatalog schema table m a cs).execAll schema [schema]
        ((List.range k).map (createChild table n)) =
      .ok (partitionedCatalog schema table m a cs) := by
  apply Catalog.execAll_of_forall
  intro s hs
  obtain ⟨i, hi, rfl⟩ := List.mem_map.mp hs
  exact exec_createChild_of_lt ((List.mem_range.mp hi).trans_le h)

theorem execAll_createChildren_conflict {n : ℕ} {a : Attrs ParamValue}
    {cs : List (Attrs ParamValue)} (h₀ : 0 < cs.length) (h : cs.length < n) :
    (partitionedCatalog schema table cs.length a cs).execAll schema [schema]
        ((List.range n).map (createChild table n)) =
      .error (.boundConflict (partitionName table cs.length)) := by
  obtain ⟨k, rfl⟩ : ∃ k, n = cs.length + (k + 1) := ⟨n - cs.length - 1, by omega⟩
  have hrange : List.range (cs.length + (k + 1)) =
      List.range cs.length ++ cs.length :: (List.range k).map fun j ↦ cs.length + (j + 1) := by
    rw [List.range_add, List.range_succ_eq_map, List.map_cons, List.map_map]
    rfl
  rw [hrange, List.map_append, Catalog.execAll_append, execAll_createChildren_of_le le_rfl,
    List.map_cons]
  exact Catalog.execAll_cons_error (exec_createChild_conflict h₀ h) _

theorem execAll_createChildren_plain {n : ℕ} (h : 0 < n) {a : Attrs ParamValue} :
    ((TableState.plain a).catalog schema table).execAll schema [schema]
        ((List.range n).map (createChild table n)) = .error (.notPartitioned table) := by
  obtain ⟨k, rfl⟩ : ∃ k, n = k + 1 := ⟨n - 1, by omega⟩
  rw [List.range_succ_eq_map, List.map_cons]
  exact Catalog.execAll_cons_error exec_createChild_plain _

theorem exec_createTable_of_mem {c : Catalog ParamValue}
    (h : tableId schema table ∈ c.rels.map Relation.id) (unlogged partitioned : Bool) :
    c.exec schema [schema] (.createTable table unlogged partitioned) = .ok c := by
  rw [Catalog.exec, Catalog.createIfNotExists_of_mem]
  exact h

theorem tableId_mem_plain (a : Attrs ParamValue) :
    tableId schema table ∈ ((TableState.plain a).catalog schema table).rels.map Relation.id :=
  List.mem_singleton_self _

/-! ## Tuning -/

theorem alter_child {m i : ℕ} {a : Attrs ParamValue} {cs : List (Attrs ParamValue)}
    {p : Relation ParamValue → Bool} (hp : p (tableRelation schema table true a) = false)
    (hps : ∀ j c, p (childRelation schema table m j c) = true ↔ j = i)
    (f : Attrs ParamValue → Attrs ParamValue) :
    (partitionedCatalog schema table m a cs).alter p f =
      partitionedCatalog schema table m a (cs.modify i f) := by
  refine Catalog.ext ?_
  rw [Catalog.rels_alter, rels_partitionedCatalog, rels_partitionedCatalog, List.map_cons, if_neg]
  · congr 1
    refine List.ext_getElem (by simp) fun j h₁ h₂ ↦ ?_
    rw [List.getElem_map, List.getElem_mapIdx, List.getElem_mapIdx, List.getElem_modify]
    by_cases hj : j = i
    · rw [if_pos ((hps j _).mpr hj), if_pos hj.symm]
      rfl
    · rw [if_neg (mt (hps j _).mp hj), if_neg (Ne.symm hj)]
  · simp [hp]

theorem childId_eq_iff {i j : ℕ} : childId schema table j = childId schema table i ↔ j = i :=
  ⟨childId_injective schema table, fun h ↦ h ▸ rfl⟩

theorem exec_setOptions_child {m i : ℕ} {a : Attrs ParamValue} {cs : List (Attrs ParamValue)}
    (h : i < cs.length) (options : List (String × ParamValue)) :
    (partitionedCatalog schema table m a cs).exec schema [schema]
        (.setOptions (partitionName table i) options) =
      .ok (partitionedCatalog schema table m a (cs.modify i (Catalog.withOptions options))) := by
  have hfind : (partitionedCatalog schema table m a cs).find
      (schema, foldName (partitionName table i)) = some (childRelation schema table m i cs[i]) :=
    find_child h
  rw [Catalog.exec, Catalog.resolve_singleton, hfind]
  dsimp only
  rw [if_neg (by simp [childRelation])]
  refine congrArg Except.ok (alter_child ?_ (fun j c ↦ ?_) _)
  · exact decide_eq_false (childId_ne_tableId schema table i).symm
  · simp [childRelation, childId_eq_iff]

/-- What `SET STORAGE` does to one relation. -/
def withStorage (storage : String) (a : Attrs ParamValue) : Attrs ParamValue :=
  { a with storage := storage }

theorem exec_setStorage_child {m i : ℕ} {a : Attrs ParamValue} {cs : List (Attrs ParamValue)}
    (h : i < cs.length) (storage : String) :
    (partitionedCatalog schema table m a cs).exec schema [schema]
        (.setStorage (partitionName table i) storage) =
      .ok (partitionedCatalog schema table m a (cs.modify i (withStorage storage))) := by
  have hfind : (partitionedCatalog schema table m a cs).find
      (schema, foldName (partitionName table i)) = some (childRelation schema table m i cs[i]) :=
    find_child h
  rw [Catalog.exec, Catalog.resolve_singleton, hfind]
  dsimp only
  refine congrArg Except.ok (alter_child ?_ (fun j c ↦ ?_) _)
  · simp [tableRelation, childRelation, (childId_ne_tableId schema table i).symm]
  · -- a child has no children of its own
    have hparent : tableId schema table ≠ childId schema table i :=
      (childId_ne_tableId schema table i).symm
    simp [childRelation, hparent, childId_eq_iff]

theorem exec_setStorage_table {m : ℕ} {a : Attrs ParamValue} {cs : List (Attrs ParamValue)}
    (storage : String) :
    (partitionedCatalog schema table m a cs).exec schema [schema] (.setStorage table storage) =
      .ok (partitionedCatalog schema table m (withStorage storage a)
        (cs.map (withStorage storage))) := by
  have hfind : (partitionedCatalog schema table m a cs).find (schema, foldName table) =
      some (tableRelation schema table true a) := find_table
  rw [Catalog.exec, Catalog.resolve_singleton, hfind]
  refine congrArg Except.ok (Catalog.ext ?_)
  rw [Catalog.rels_alter, rels_partitionedCatalog, rels_partitionedCatalog, List.map_cons, if_pos]
  · congr 1
    refine List.ext_getElem (by simp) fun j h₁ h₂ ↦ ?_
    simp [childRelation, tableRelation, withStorage]
  · simp [tableRelation]

/-- What the tuning does to a relation that stores rows. -/
def TuneConfig.tuned (t : TuneConfig) (a : Attrs ParamValue) : Attrs ParamValue :=
  Catalog.withOptions t.autovacuumOptions
    (withStorage t.toastStorage (Catalog.withOptions t.storageOptions a))

/-- The statements about one relation that stores rows. -/
def TuneConfig.tuneRelation (t : TuneConfig) (name : String) : List (Ddl ParamValue) :=
  [.setOptions name t.storageOptions, .setStorage name t.toastStorage,
   .setOptions name t.autovacuumOptions]

theorem tuneStatements_of_le {t : TuneConfig} (h : t.hashPartitions ≤ 1) (table : String) :
    t.tuneStatements table = t.tuneRelation table := by
  rw [tuneStatements, tuneParts, if_pos h]
  rfl

theorem tuneStatements_of_lt {t : TuneConfig} (h : 1 < t.hashPartitions) (table : String) :
    t.tuneStatements table = .setStorage table t.toastStorage ::
      (List.range t.hashPartitions).flatMap fun i ↦ t.tuneRelation (partitionName table i) := by
  rw [tuneStatements, tuneParts, if_neg h.not_ge, List.filterMap_append, List.filterMap_flatMap]
  rfl

theorem execAll_tuneRelation {t : TuneConfig} {m i : ℕ} {a : Attrs ParamValue}
    {cs : List (Attrs ParamValue)} (h : i < cs.length) :
    (partitionedCatalog schema table m a cs).execAll schema [schema]
        (t.tuneRelation (partitionName table i)) =
      .ok (partitionedCatalog schema table m a (cs.modify i t.tuned)) := by
  have h₁ : i < (cs.modify i (Catalog.withOptions t.storageOptions)).length := by
    rwa [List.length_modify]
  have h₂ : i < ((cs.modify i (Catalog.withOptions t.storageOptions)).modify i
      (withStorage t.toastStorage)).length := by
    rwa [List.length_modify]
  rw [tuneRelation, Catalog.execAll_cons (exec_setOptions_child h _),
    Catalog.execAll_cons (exec_setStorage_child h₁ _),
    Catalog.execAll_cons (exec_setOptions_child h₂ _), List.modify_modify_eq,
    List.modify_modify_eq]
  rfl

theorem execAll_tuneChildren {t : TuneConfig} {m n : ℕ} {a : Attrs ParamValue}
    {cs : List (Attrs ParamValue)} (h : n ≤ cs.length) :
    (partitionedCatalog schema table m a cs).execAll schema [schema]
        ((List.range n).flatMap fun i ↦ t.tuneRelation (partitionName table i)) =
      .ok (partitionedCatalog schema table m a
        (cs.mapIdx fun j c ↦ if j < n then t.tuned c else c)) := by
  induction n with
  | zero =>
    have hid : (cs.mapIdx fun j c ↦ if j < 0 then t.tuned c else c) = cs :=
      List.ext_getElem (by simp) fun j h₁ h₂ ↦ by simp
    rw [hid]
    rfl
  | succ n ih =>
    have hlen : n < (cs.mapIdx fun j c ↦ if j < n then t.tuned c else c).length := by
      rw [List.length_mapIdx]
      omega
    have hnext : (cs.mapIdx fun j c ↦ if j < n then t.tuned c else c).modify n t.tuned =
        cs.mapIdx fun j c ↦ if j < n + 1 then t.tuned c else c := by
      refine List.ext_getElem (by simp) fun j h₁ h₂ ↦ ?_
      rw [List.getElem_modify, List.getElem_mapIdx, List.getElem_mapIdx]
      rcases Nat.lt_trichotomy j n with hj | rfl | hj
      · rw [if_neg hj.ne', if_pos hj, if_pos (by omega)]
      · rw [if_pos rfl, if_neg (lt_irrefl _), if_pos (by omega)]
      · rw [if_neg hj.ne, if_neg (by omega), if_neg (by omega)]
    rw [List.range_succ, List.flatMap_append, Catalog.execAll_append, ih (by omega), Except.bind,
      List.flatMap_singleton, execAll_tuneRelation hlen, hnext]

/-- **The tuning of a partitioned table** reaches the first children, and the storage strategy of
all. -/
theorem execAll_tuneStatements {t : TuneConfig} (hN : 1 < t.hashPartitions) {m : ℕ}
    {a : Attrs ParamValue} {cs : List (Attrs ParamValue)} (h : t.hashPartitions ≤ cs.length) :
    (partitionedCatalog schema table m a cs).execAll schema [schema] (t.tuneStatements table) =
      .ok (partitionedCatalog schema table m (withStorage t.toastStorage a)
        ((cs.map (withStorage t.toastStorage)).mapIdx fun j c ↦
          if j < t.hashPartitions then t.tuned c else c)) := by
  rw [tuneStatements_of_lt hN, Catalog.execAll_cons (exec_setStorage_table _)]
  exact execAll_tuneChildren (by rwa [List.length_map])

/-- The tuning of a plain table is refused for a partitioned one. -/
theorem execAll_tuneStatements_of_le {t : TuneConfig} (hN : t.hashPartitions ≤ 1) {m : ℕ}
    {a : Attrs ParamValue} {cs : List (Attrs ParamValue)} :
    (partitionedCatalog schema table m a cs).execAll schema [schema] (t.tuneStatements table) =
      .error (.noStorageParameters table) := by
  have hfind : (partitionedCatalog schema table m a cs).find (schema, foldName table) =
      some (tableRelation schema table true a) := find_table
  rw [tuneStatements_of_le hN, tuneRelation, Catalog.execAll, Catalog.exec,
    Catalog.resolve_singleton, hfind]
  rfl

/-! ## A start, on states -/

/-- What a configuration creates where there is nothing. -/
def TableState.first (t : TuneConfig) : TableState :=
  if t.hashPartitions ≤ 1 then .plain (Catalog.freshAttrs t.useUnlogged "extended")
  else .partitioned (Catalog.freshAttrs t.useUnlogged "extended")
    (List.replicate t.hashPartitions (freshChild (Catalog.freshAttrs t.useUnlogged "extended")))

/-- What the first message makes of a state. -/
def TableState.created (t : TuneConfig) (table : String) : TableState → Except DdlError TableState
  | .absent => .ok (.first t)
  | .plain a => if t.hashPartitions ≤ 1 then .ok (.plain a) else .error (.notPartitioned table)
  | .partitioned a cs =>
    if t.hashPartitions ≤ 1 ∨ t.hashPartitions ≤ cs.length then .ok (.partitioned a cs)
    else if cs = [] then .ok (.partitioned a (List.replicate t.hashPartitions (freshChild a)))
    else .error (.boundConflict (partitionName table cs.length))

theorem createStatements_of_le {t : TuneConfig} (h : t.hashPartitions ≤ 1) (table : String) :
    t.createStatements table = [.createTable table t.useUnlogged false] := by
  rw [createStatements, if_pos h]

theorem createStatements_of_lt {t : TuneConfig} (h : 1 < t.hashPartitions) (table : String) :
    t.createStatements table = .createTable table t.useUnlogged true ::
      (List.range t.hashPartitions).map (createChild table t.hashPartitions) := by
  rw [createStatements, if_neg h.not_ge]
  rfl

theorem catalog_partitioned_replicate (a b : Attrs ParamValue) (n : ℕ) :
    (TableState.partitioned a (List.replicate n b)).catalog schema table =
      partitionedCatalog schema table n a (List.replicate n b) := by
  rw [TableState.catalog, List.length_replicate]

/-- **The first message, on states.** -/
theorem execAll_createStatements (t : TuneConfig) (σ : TableState) :
    (σ.catalog schema table).execAll schema [schema] (t.createStatements table) =
      (σ.created t table).map (TableState.catalog schema table) := by
  by_cases hN : t.hashPartitions ≤ 1
  · rw [createStatements_of_le hN]
    cases σ with
    | absent =>
      rw [TableState.created, TableState.first, if_pos hN]
      rfl
    | plain a =>
      rw [Catalog.execAll_cons (exec_createTable_of_mem (tableId_mem_plain a) _ _),
        TableState.created, if_pos hN]
      rfl
    | partitioned a cs =>
      rw [TableState.catalog, Catalog.execAll_cons (exec_createTable_of_mem tableId_mem _ _),
        TableState.created, if_pos (Or.inl hN)]
      rfl
  · have hN' : 1 < t.hashPartitions := not_le.mp hN
    rw [createStatements_of_lt hN']
    cases σ with
    | absent =>
      have hparent : (∅ : Catalog ParamValue).exec schema [schema]
          (.createTable table t.useUnlogged true) =
          .ok (partitionedCatalog schema table t.hashPartitions
            (Catalog.freshAttrs t.useUnlogged "extended") []) := rfl
      rw [TableState.catalog, Catalog.execAll_cons hparent, execAll_createChildren le_rfl,
        TableState.created, TableState.first, if_neg hN, Except.map,
        catalog_partitioned_replicate]
    | plain a =>
      rw [Catalog.execAll_cons (exec_createTable_of_mem (tableId_mem_plain a) _ _),
        execAll_createChildren_plain (by omega), TableState.created, if_neg hN]
      rfl
    | partitioned a cs =>
      rw [TableState.catalog, Catalog.execAll_cons (exec_createTable_of_mem tableId_mem _ _),
        TableState.created]
      by_cases hle : t.hashPartitions ≤ cs.length
      · rw [if_pos (Or.inr hle), execAll_createChildren_of_le hle]
        rfl
      · rw [if_neg (not_or.mpr ⟨hN, hle⟩)]
        by_cases hcs : cs = []
        · subst hcs
          -- a parent without children is the same for every modulus
          have hnil : partitionedCatalog schema table ([] : List (Attrs ParamValue)).length a [] =
              partitionedCatalog schema table t.hashPartitions a [] := rfl
          rw [if_pos rfl, Except.map, catalog_partitioned_replicate, hnil]
          exact execAll_createChildren le_rfl a
        · rw [if_neg hcs, execAll_createChildren_conflict (List.length_pos_iff.mpr hcs)
            (not_le.mp hle)]
          rfl

end Catalogs

end SurrealPg
