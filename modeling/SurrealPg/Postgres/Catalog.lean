import Mathlib.Algebra.BigOperators.Group.List.Basic
import Mathlib.Data.Nat.ModEq
import Mathlib.Data.List.Nodup
import Mathlib.Logic.Function.Basic

/-!
# Relations, schemas and data definition

The part of PostgreSQL's catalog that says which relations there are, which of them are partitions
of which, and with what storage parameters. A relation is named by its schema and its own name, and
no two have the same; that is a field of the catalog. A name in a statement is folded to lower case
and looked up along the search path, a name bound as a parameter of a catalog query is compared as
it is with the names of all relations in all schemas.

Statements sent in one message succeed together or not at all.
-/

namespace Postgres

/-- A schema and a name in it. -/
abbrev RelId := String × String

/-- Where a partition belongs: its parent, and the keys whose hash leaves this remainder. -/
structure Bound where
  parent : RelId
  modulus : ℕ
  remainder : ℕ
  deriving DecidableEq

/-- What storage parameters and statistics a relation has. -/
structure Attrs (V : Type) where
  unlogged : Bool
  options : String → Option V
  /-- The storage strategy of the value column. -/
  storage : String
  /-- The estimated number of rows, negative if there is no estimate. -/
  reltuples : ℤ

/-- A row of `pg_class`, with what other catalogs say of it. -/
structure Relation (V : Type) where
  id : RelId
  /-- A partitioned table stores no rows itself. -/
  partitioned : Bool
  bound : Option Bound
  attrs : Attrs V

/-- What no `ALTER TABLE` changes of a relation. -/
def Relation.entry {V : Type} (r : Relation V) : RelId × Bool × Option Bound :=
  (r.id, r.partitioned, r.bound)

/-- Relations with different names. -/
@[ext] structure Catalog (V : Type) where
  rels : List (Relation V)
  unique : (rels.map Relation.id).Nodup

/-- How an unquoted identifier is stored. -/
def foldName (name : String) : String := String.ofList (name.toList.map Char.toLower)

/-- Data definition statements, with names as they are written. -/
inductive Ddl (V : Type)
  /-- `CREATE [UNLOGGED] TABLE IF NOT EXISTS ..`, perhaps `PARTITION BY HASH` -/
  | createTable (name : String) (unlogged partitioned : Bool)
  /-- `CREATE [UNLOGGED] TABLE IF NOT EXISTS .. PARTITION OF .. FOR VALUES WITH (..)` -/
  | createPartition (name parent : String) (unlogged : Bool) (modulus remainder : ℕ)
  /-- `ALTER TABLE .. SET (..)` -/
  | setOptions (name : String) (options : List (String × V))
  /-- `ALTER TABLE .. ALTER COLUMN .. SET STORAGE ..` -/
  | setStorage (name : String) (storage : String)

/-- Whether a statement alters a relation. -/
def Ddl.isAlter {V : Type} : Ddl V → Bool
  | .setOptions .. | .setStorage .. => true
  | _ => false

/-- Why a statement is refused. -/
inductive DdlError
  | undefinedTable (name : String)
  /-- `PARTITION OF` a relation that is not partitioned. -/
  | notPartitioned (parent : String)
  /-- A remainder that is taken, or a modulus that does not fit the others. -/
  | boundConflict (name : String)
  /-- Storage parameters for a partitioned table. -/
  | noStorageParameters (name : String)
  deriving DecidableEq

/-- Whether two partitions of one table cannot be there together. -/
def Bound.conflicts (a b : Bound) : Bool :=
  !(decide (a.modulus ∣ b.modulus) || decide (b.modulus ∣ a.modulus)) ||
    decide (a.remainder % min a.modulus b.modulus = b.remainder % min a.modulus b.modulus)

namespace Catalog

variable {V : Type} (c : Catalog V)

instance : EmptyCollection (Catalog V) := ⟨⟨[], List.nodup_nil⟩⟩

/-! ## Looking up -/

def find (id : RelId) : Option (Relation V) := c.rels.find? fun r ↦ r.id = id

/-- What an unqualified name, folded, resolves to. -/
def resolve (path : List String) (name : String) : Option (Relation V) :=
  path.findSome? fun schema ↦ c.find (schema, name)

/-- The rows of `pg_inherits` under a relation. -/
def children (id : RelId) : List (Relation V) :=
  c.rels.filter fun r ↦ r.bound.any fun b ↦ b.parent = id

/-- `SELECT count(*) FROM pg_partitioned_table pt JOIN pg_class c ON c.oid = pt.partrelid JOIN
pg_inherits i ON i.inhparent = c.oid WHERE c.relname = $1` -/
def partitionCount (relname : String) : ℕ :=
  ((c.rels.filter fun r ↦ r.partitioned && r.id.2 == relname).map fun r ↦
    (c.children r.id).length).sum

/-! ## Statements -/

/-- A new relation, unless there is one of that name. -/
def createIfNotExists (r : Relation V) : Catalog V :=
  if h : r.id ∈ c.rels.map Relation.id then c
  else
    { rels := c.rels ++ [r]
      unique := by
        rw [List.map_append, List.map_singleton]
        exact List.Nodup.append c.unique (List.nodup_singleton _)
          (List.disjoint_singleton.mpr h) }

/-- Change the attributes of the relations `p` holds of. -/
def alter (p : Relation V → Bool) (f : Attrs V → Attrs V) : Catalog V where
  rels := c.rels.map fun r ↦ if p r then { r with attrs := f r.attrs } else r
  unique := by
    have hid : (Relation.id ∘ fun r : Relation V ↦ if p r then { r with attrs := f r.attrs } else r)
        = Relation.id := by
      funext r
      rw [Function.comp_apply]
      split_ifs <;> rfl
    rw [List.map_map, hid]
    exact c.unique

theorem rels_alter (p : Relation V → Bool) (f : Attrs V → Attrs V) :
    (c.alter p f).rels = c.rels.map fun r ↦ if p r then { r with attrs := f r.attrs } else r :=
  rfl

/-- The attributes of a relation just created. -/
def freshAttrs (unlogged : Bool) (storage : String) : Attrs V :=
  ⟨unlogged, fun _ ↦ none, storage, -1⟩

/-- Overwrite storage parameters. -/
def withOptions (options : List (String × V)) (a : Attrs V) : Attrs V :=
  { a with options := options.foldl (fun o p ↦ Function.update o p.1 (some p.2)) a.options }

theorem options_withOptions_of_notMem {key : String} {options : List (String × V)}
    (h : key ∉ options.map Prod.fst) (a : Attrs V) :
    (withOptions options a).options key = a.options key := by
  induction options generalizing a with
  | nil => rfl
  | cons p ps ih =>
    rw [List.map_cons, List.mem_cons, not_or] at h
    exact (ih h.2 { a with options := Function.update a.options p.1 (some p.2) }).trans
      (Function.update_of_ne h.1 _ _)

theorem options_withOptions_of_mem {options : List (String × V)}
    (h : (options.map Prod.fst).Nodup) {p : String × V} (hp : p ∈ options) (a : Attrs V) :
    (withOptions options a).options p.1 = some p.2 := by
  induction options generalizing a with
  | nil => exact absurd hp List.not_mem_nil
  | cons q qs ih =>
    rw [List.map_cons, List.nodup_cons] at h
    rcases List.mem_cons.mp hp with rfl | hp
    · -- no later assignment is to this key
      exact (options_withOptions_of_notMem h.1
        { a with options := Function.update a.options p.1 (some p.2) }).trans
          (Function.update_self _ _ _)
    · exact ih h.2 hp { a with options := Function.update a.options q.1 (some q.2) }

/-- Overwriting changes nothing exactly if all values are there already. -/
theorem withOptions_eq_self_iff {options : List (String × V)} (h : (options.map Prod.fst).Nodup)
    {a : Attrs V} : withOptions options a = a ↔ ∀ p ∈ options, a.options p.1 = some p.2 := by
  constructor
  · intro heq p hp
    rw [← options_withOptions_of_mem h hp a, heq]
  · intro hall
    have hopts : (withOptions options a).options = a.options := by
      funext key
      by_cases hkey : key ∈ options.map Prod.fst
      · obtain ⟨p, hp, rfl⟩ := List.mem_map.mp hkey
        rw [options_withOptions_of_mem h hp, hall p hp]
      · exact options_withOptions_of_notMem hkey a
    exact congrArg (fun o ↦ { a with options := o }) hopts

/-- One statement. New relations go to the schema `schema`, names are looked up along `path`. -/
def exec (schema : String) (path : List String) : Ddl V → Except DdlError (Catalog V)
  | .createTable name unlogged partitioned =>
    .ok <| c.createIfNotExists
      ⟨(schema, foldName name), partitioned, none, freshAttrs unlogged "extended"⟩
  | .createPartition name parent unlogged modulus remainder =>
    if (schema, foldName name) ∈ c.rels.map Relation.id then .ok c
    else match c.resolve path (foldName parent) with
      | none => .error (.undefinedTable parent)
      | some p =>
        if !p.partitioned then .error (.notPartitioned parent)
        else if remainder < modulus ∧ ∀ b ∈ (c.children p.id).filterMap Relation.bound,
            Bound.conflicts ⟨p.id, modulus, remainder⟩ b = false then
          .ok <| c.createIfNotExists ⟨(schema, foldName name), false,
            some ⟨p.id, modulus, remainder⟩, freshAttrs unlogged p.attrs.storage⟩
        else .error (.boundConflict name)
  | .setOptions name options =>
    match c.resolve path (foldName name) with
    | none => .error (.undefinedTable name)
    | some r =>
      if r.partitioned then .error (.noStorageParameters name)
      else .ok (c.alter (fun r' ↦ r'.id = r.id) (withOptions options))
  | .setStorage name storage =>
    match c.resolve path (foldName name) with
    | none => .error (.undefinedTable name)
    | some r =>
      -- the partitions of a table are altered with it
      .ok <| c.alter (fun r' ↦ r'.id = r.id || r'.bound.any fun b ↦ b.parent = r.id)
        fun a ↦ { a with storage := storage }

/-- The statements of a message, until one is refused. -/
def execAll (schema : String) (path : List String) :
    Catalog V → List (Ddl V) → Except DdlError (Catalog V)
  | c, [] => .ok c
  | c, s :: ss =>
    match c.exec schema path s with
    | .error e => .error e
    | .ok c' => execAll schema path c' ss

/-- One message: a refusal takes back what came before it. -/
def send (schema : String) (path : List String) (ss : List (Ddl V)) :
    Except DdlError Unit × Catalog V :=
  match execAll schema path c ss with
  | .error e => (.error e, c)
  | .ok c' => (.ok (), c')

variable {c} in
/-- Names are unique, so a relation is found by the name it has. -/
theorem find_eq_some_iff {id : RelId} {r : Relation V} :
    c.find id = some r ↔ r ∈ c.rels ∧ r.id = id := by
  constructor
  · intro h
    exact ⟨List.mem_of_find?_eq_some h, by simpa using List.find?_some h⟩
  · rintro ⟨hmem, hid⟩
    obtain ⟨r', hr'⟩ : ∃ r', c.find id = some r' := by
      refine Option.isSome_iff_exists.mp (List.find?_isSome.mpr ⟨r, hmem, ?_⟩)
      exact decide_eq_true hid
    have hmem' := List.mem_of_find?_eq_some hr'
    have hid' : r'.id = id := by simpa using List.find?_some hr'
    rw [hr', List.inj_on_of_nodup_map c.unique hmem' hmem (hid'.trans hid.symm)]

theorem resolve_singleton (schema name : String) :
    c.resolve [schema] name = c.find (schema, name) := by
  rw [resolve, List.findSome?_cons]
  cases c.find (schema, name) <;> rfl

/-! ## The shape of a catalog

Which relations there are, and which are partitions of which, apart from their attributes. Only
the creation of a relation changes it, and the catalog queries on partitions depend on nothing
else. -/

def shape : List (RelId × Bool × Option Bound) := c.rels.map Relation.entry

variable {c} {c' : Catalog V}

theorem shape_alter (p : Relation V → Bool) (f : Attrs V → Attrs V) :
    (c.alter p f).shape = c.shape := by
  rw [shape, shape, rels_alter, List.map_map]
  refine List.map_congr_left fun r _ ↦ ?_
  rw [Function.comp_apply]
  split_ifs <;> rfl

theorem map_id_eq_of_shape (h : c'.shape = c.shape) :
    c'.rels.map Relation.id = c.rels.map Relation.id := by
  have hfst : ∀ c : Catalog V, c.rels.map Relation.id = c.shape.map Prod.fst := fun c ↦ by
    rw [shape, List.map_map]
    rfl
  rw [hfst, hfst, h]

theorem length_children_eq_of_shape (h : c'.shape = c.shape) (id : RelId) :
    (c'.children id).length = (c.children id).length := by
  have hlen : ∀ c : Catalog V, (c.children id).length =
      (c.shape.filter fun e ↦ e.2.2.any fun b ↦ b.parent = id).length := fun c ↦ by
    rw [shape, List.filter_map, List.length_map]
    rfl
  rw [hlen, hlen, h]

theorem partitionCount_eq_of_shape (h : c'.shape = c.shape) (relname : String) :
    c'.partitionCount relname = c.partitionCount relname := by
  have hcount : ∀ c₁ : Catalog V, c₁.shape = c.shape → c₁.partitionCount relname =
      ((c.shape.filter fun e ↦ e.2.1 && e.1.2 == relname).map fun e ↦
        (c.children e.1).length).sum := by
    intro c₁ h₁
    rw [← h₁, shape, List.filter_map, List.map_map, partitionCount]
    refine congrArg List.sum (List.map_congr_left fun r _ ↦ ?_)
    exact length_children_eq_of_shape h₁ r.id
  rw [hcount c' h, hcount c rfl]

/-! ## Runs of statements -/

variable {schema : String} {path : List String}

theorem createIfNotExists_of_mem {r : Relation V} (h : r.id ∈ c.rels.map Relation.id) :
    c.createIfNotExists r = c :=
  dif_pos h

theorem rels_createIfNotExists {r : Relation V} (h : r.id ∉ c.rels.map Relation.id) :
    (c.createIfNotExists r).rels = c.rels ++ [r] := by
  rw [createIfNotExists, dif_neg h]

theorem execAll_cons {s : Ddl V} (h : c.exec schema path s = .ok c') (ss : List (Ddl V)) :
    c.execAll schema path (s :: ss) = c'.execAll schema path ss := by
  rw [execAll, h]

theorem execAll_cons_error {s : Ddl V} {e : DdlError} (h : c.exec schema path s = .error e)
    (ss : List (Ddl V)) : c.execAll schema path (s :: ss) = .error e := by
  rw [execAll, h]

theorem execAll_append (ss ss' : List (Ddl V)) :
    c.execAll schema path (ss ++ ss') =
      (c.execAll schema path ss).bind fun c' ↦ c'.execAll schema path ss' := by
  induction ss generalizing c with
  | nil => rfl
  | cons s ss ih =>
    rw [List.cons_append, execAll, execAll]
    cases c.exec schema path s with
    | error e => rfl
    | ok c' => exact ih

theorem execAll_of_forall {ss : List (Ddl V)} (h : ∀ s ∈ ss, c.exec schema path s = .ok c) :
    c.execAll schema path ss = .ok c := by
  induction ss with
  | nil => rfl
  | cons s ss ih =>
    rw [execAll_cons (h s List.mem_cons_self)]
    exact ih fun s' hs' ↦ h s' (List.mem_cons_of_mem _ hs')

theorem shape_exec {s : Ddl V} (hs : s.isAlter = true) (h : c.exec schema path s = .ok c') :
    c'.shape = c.shape := by
  cases s with
  | createTable | createPartition => exact absurd hs Bool.false_ne_true
  | setOptions name options =>
    rw [exec] at h
    split at h
    · exact nomatch h
    · split_ifs at h
      rw [← Except.ok.inj h, shape_alter]
  | setStorage name storage =>
    rw [exec] at h
    split at h
    · exact nomatch h
    · rw [← Except.ok.inj h, shape_alter]

theorem shape_execAll {ss : List (Ddl V)} (hss : ∀ s ∈ ss, s.isAlter = true)
    (h : c.execAll schema path ss = .ok c') : c'.shape = c.shape := by
  induction ss generalizing c with
  | nil => rw [← Except.ok.inj h]
  | cons s ss ih =>
    rw [execAll] at h
    cases hs : c.exec schema path s with
    | error e => rw [hs] at h; exact nomatch h
    | ok c₁ =>
      rw [hs] at h
      rw [ih (fun s' hs' ↦ hss s' (List.mem_cons_of_mem _ hs')) h,
        shape_exec (hss s List.mem_cons_self) hs]

theorem shape_send {ss : List (Ddl V)} (hss : ∀ s ∈ ss, s.isAlter = true) :
    (c.send schema path ss).2.shape = c.shape := by
  rw [send]
  cases h : c.execAll schema path ss with
  | error e => rfl
  | ok c' => exact shape_execAll hss h

end Catalog

end Postgres
