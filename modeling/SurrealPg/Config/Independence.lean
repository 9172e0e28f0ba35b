import SurrealPg.Config.PoolSize

/-!
# The parameters of the URL act independently

Thirteen parameters share one loop over the query string. Each has its own rule for the values it
accepts, and an accepted value overwrites one field. Stated once for all of them, with the type of
the field depending on the parameter, this gives the configuration that comes out field by field:
each field is what its own pairs make of it, one after the other, and the pairs of the other
parameters and of the driver have no part in it.

The one thing the pairs share is the early return. A table name that is not an identifier ends the
loop wherever it stands, so whether there is a configuration at all depends on the pairs of
`table_name` alone. Together the two say that only the order among pairs with the same key matters,
and they say when sqlx is given a URL from which something was cut out that nobody has read.
-/

namespace SurrealPg

open Text

/-! ## One parameter -/

namespace Param

/-- What the parameter sets. -/
abbrev Field : Param → Type
  | maxConnections | minConnections | hashPartitions => Option ℕ
  | maxLifetime | connectTimeout | idleTimeout => Option Duration
  | slowAcquireThresholdSecs | slowStatementsThresholdSecs => Option Duration
  | autoCreateTable | pooler => Bool
  | tableName => String
  | isolationLevel => PgIsolation
  | persistentStatements => PersistentStatements

/-- The value a text sets it to, if it is accepted. An isolation level that is not recognized is
read as the default one. -/
def accept : (p : Param) → Text → Option p.Field
  | maxConnections, value => (acceptMax value).map some
  | minConnections, value => (acceptMin value).map some
  | hashPartitions, value =>
    (parseU32 value).bind fun v ↦ if v = 0 ∨ 1024 < v then none else some (some v)
  | maxLifetime, value => (PgConfig.seconds value).map some
  | connectTimeout, value => (PgConfig.seconds value).map some
  | idleTimeout, value => (PgConfig.seconds value).map some
  | slowAcquireThresholdSecs, value => (PgConfig.seconds value).map some
  | slowStatementsThresholdSecs, value => (PgConfig.seconds value).map some
  | autoCreateTable, value => parseBoolParam value
  | pooler, value => parseBoolParam value
  | tableName, value =>
    if ValidIdentifier (String.ofList value) then some (String.ofList value) else none
  | isolationLevel, value => some ((PgConfig.isolation value).getD .readCommitted)
  | persistentStatements, value => PersistentStatements.parse value

/-- A value that is accepted overwrites, and one that is not leaves what was there. -/
def overwrite (p : Param) (old : p.Field) (value : Text) : p.Field := (p.accept value).getD old

/-- Why a table name is rejected. -/
def rejection (value : Text) : Option String :=
  match validateIdentifier (String.ofList value) with
  | .error e => some e
  | .ok _ => none

/-- The values that the pairs of a query give to the parameter, in order. -/
def values (p : Param) (pairs : List Text) : List Text := pairs.filterMap (pairValue p)

theorem isSome_rejection_iff {value : Text} :
    (rejection value).isSome = true ↔ ¬ValidIdentifier (String.ofList value) := by
  rw [rejection, ValidIdentifier]
  cases validateIdentifier (String.ofList value) <;> simp

theorem findSome?_rejection_cons (pair : Text) (pairs : List Text) :
    (tableName.values (pair :: pairs)).findSome? rejection =
      ((pairValue .tableName pair).bind rejection).or
        ((tableName.values pairs).findSome? rejection) := by
  rw [values, List.filterMap_cons]
  cases pairValue .tableName pair with
  | none => rfl
  | some value =>
    rw [Option.bind_some, List.findSome?_cons, ← values]
    cases rejection value <;> rfl

end Param

namespace PgConfig

def field (c : PgConfig) : (p : Param) → p.Field
  | .maxConnections => c.maxConnections
  | .minConnections => c.minConnections
  | .maxLifetime => c.maxLifetime
  | .autoCreateTable => c.autoCreateTable
  | .tableName => c.tableName
  | .isolationLevel => c.isolationLevel
  | .persistentStatements => c.persistentStatements
  | .connectTimeout => c.connectTimeout
  | .idleTimeout => c.idleTimeout
  | .slowAcquireThresholdSecs => c.slowAcquireThresholdSecs
  | .slowStatementsThresholdSecs => c.slowStatementsThresholdSecs
  | .pooler => c.pooler
  | .hashPartitions => c.hashPartitions

def setField (c : PgConfig) : (p : Param) → p.Field → PgConfig
  | .maxConnections, v => { c with maxConnections := v }
  | .minConnections, v => { c with minConnections := v }
  | .maxLifetime, v => { c with maxLifetime := v }
  | .autoCreateTable, v => { c with autoCreateTable := v }
  | .tableName, v => { c with tableName := v }
  | .isolationLevel, v => { c with isolationLevel := v }
  | .persistentStatements, v => { c with persistentStatements := v }
  | .connectTimeout, v => { c with connectTimeout := v }
  | .idleTimeout, v => { c with idleTimeout := v }
  | .slowAcquireThresholdSecs, v => { c with slowAcquireThresholdSecs := v }
  | .slowStatementsThresholdSecs, v => { c with slowStatementsThresholdSecs := v }
  | .pooler, v => { c with pooler := v }
  | .hashPartitions, v => { c with hashPartitions := v }

variable {c c' : PgConfig} {p q : Param} {value : Text}

@[simp]
theorem field_setField_self (v : p.Field) : (c.setField p v).field p = v := by
  cases p <;> rfl

theorem field_setField_of_ne (h : q ≠ p) (v : p.Field) : (c.setField p v).field q = c.field q := by
  cases p <;> cases q <;> first | exact absurd rfl h | rfl

theorem setField_field : c.setField p (c.field p) = c := by
  cases p <;> rfl

/-- A configuration is its fields. -/
theorem ext_field (h : ∀ p, c.field p = c'.field p) : c = c' := by
  cases c
  cases c'
  simp only [PgConfig.mk.injEq]
  exact ⟨h .maxConnections, h .minConnections, h .connectTimeout, h .idleTimeout, h .maxLifetime,
    h .slowAcquireThresholdSecs, h .slowStatementsThresholdSecs, h .autoCreateTable, h .tableName,
    h .isolationLevel, h .persistentStatements, h .pooler, h .hashPartitions⟩

theorem applied_eq (p : Param) {α : Type} (v : Option α) (g : α → p.Field)
    (h : p.accept value = v.map g) :
    ∃ warned, c.applied v (fun a ↦ c.setField p (g a)) =
      .ours (c.setField p (p.overwrite (c.field p) value)) warned := by
  rw [Param.overwrite, h]
  cases v with
  | none => exact ⟨true, by rw [Option.map_none, Option.getD_none, setField_field]; rfl⟩
  | some a => exact ⟨false, rfl⟩

theorem mergeParam_eq (c : PgConfig) (value : Text) {p : Param} (hp : p ≠ .tableName) :
    ∃ warned, c.mergeParam value p =
      .ours (c.setField p (p.overwrite (c.field p) value)) warned := by
  cases p with
  | maxConnections =>
    obtain ⟨warned, h⟩ := c.mergeMaxConnections_eq value
    refine ⟨warned, h.trans ?_⟩
    rw [Param.overwrite, Param.accept]
    cases acceptMax value <;> rfl
  | minConnections =>
    obtain ⟨warned, h⟩ := c.mergeMinConnections_eq value
    refine ⟨warned, h.trans ?_⟩
    rw [Param.overwrite, Param.accept]
    cases acceptMin value <;> rfl
  | hashPartitions =>
    rw [mergeParam, mergeHashPartitions, Param.overwrite, Param.accept]
    rcases parseU32 value with _ | _ | v
    · exact ⟨true, rfl⟩
    · exact ⟨true, rfl⟩
    · by_cases hv : 1024 < v + 1
      · exact ⟨true, by simp [hv, setField_field]⟩
      · exact ⟨false, by simp [hv, setField]⟩
  | tableName => exact absurd rfl hp
  | isolationLevel =>
    rw [mergeParam, mergeIsolationLevel, Param.overwrite, Param.accept]
    cases isolation value with
    | none => exact ⟨true, rfl⟩
    | some l => exact ⟨false, rfl⟩
  | maxLifetime =>
    exact applied_eq .maxLifetime (seconds value) some rfl
  | connectTimeout =>
    exact applied_eq .connectTimeout (seconds value) some rfl
  | idleTimeout =>
    exact applied_eq .idleTimeout (seconds value) some rfl
  | slowAcquireThresholdSecs =>
    exact applied_eq .slowAcquireThresholdSecs (seconds value) some rfl
  | slowStatementsThresholdSecs =>
    exact applied_eq .slowStatementsThresholdSecs (seconds value) some rfl
  | autoCreateTable =>
    exact applied_eq .autoCreateTable (parseBoolParam value) id (Option.map_id_apply).symm
  | pooler =>
    exact applied_eq .pooler (parseBoolParam value) id (Option.map_id_apply).symm
  | persistentStatements =>
    exact applied_eq .persistentStatements (PersistentStatements.parse value) id
      (Option.map_id_apply).symm

/-- The arm of the table name is the only one that refuses. -/
theorem mergeParam_cases (c : PgConfig) (value : Text) (p : Param) :
    (∃ warned, c.mergeParam value p = .ours (c.setField p (p.overwrite (c.field p) value)) warned ∧
        (p = .tableName → Param.rejection value = none)) ∨
      ∃ e, p = .tableName ∧ Param.rejection value = some e ∧ c.mergeParam value p = .refused e := by
  by_cases hp : p = .tableName
  · subst hp
    rw [mergeParam, mergeTableName, Param.rejection, Param.overwrite, Param.accept]
    cases hvalid : validateIdentifier (String.ofList value) with
    | error e => exact Or.inr ⟨e, rfl, rfl, rfl⟩
    | ok u =>
      have haccept : ValidIdentifier (String.ofList value) := hvalid
      refine Or.inl ⟨false, ?_, fun _ ↦ rfl⟩
      rw [if_pos haccept]
      rfl
  · obtain ⟨warned, h⟩ := c.mergeParam_eq value hp
    exact Or.inl ⟨warned, h, fun h ↦ absurd h hp⟩

theorem mergePair_cases (c : PgConfig) (pair : Text) :
    (∃ c₁ warned, c.mergePair pair = .ours c₁ warned ∧
        (∀ p, c₁.field p = (pairValue p pair).elim (c.field p) (p.overwrite (c.field p))) ∧
        (pairValue .tableName pair).bind Param.rejection = none) ∨
      (c.mergePair pair = .theirs ∧ ∀ p, pairValue p pair = none) ∨
      ∃ e, c.mergePair pair = .refused e ∧
        (pairValue .tableName pair).bind Param.rejection = some e := by
  have hvalue : ∀ p, pairValue p pair = (splitOnce '=' pair).bind fun kv ↦
      if Param.ofKey (String.ofList kv.1) = some p then some (percentDecode kv.2) else none :=
    fun _ ↦ rfl
  simp only [hvalue, mergePair]
  cases splitOnce '=' pair with
  | none =>
    dsimp only
    split_ifs with hknown
    · exact Or.inl ⟨c, true, rfl, fun _ ↦ rfl, rfl⟩
    · exact Or.inr (Or.inl ⟨rfl, fun _ ↦ rfl⟩)
  | some kv =>
    simp only [Option.bind_some]
    cases hkey : Param.ofKey (String.ofList kv.1) with
    | none => exact Or.inr (Or.inl ⟨rfl, fun p ↦ if_neg (by simp)⟩)
    | some q =>
      rcases c.mergeParam_cases (percentDecode kv.2) q with ⟨warned, h, hvalid⟩ | ⟨e, rfl, he, h⟩
      · refine Or.inl ⟨_, warned, h, fun p ↦ ?_, ?_⟩
        · by_cases hp : q = p
          · subst hp
            rw [field_setField_self, if_pos rfl, Option.elim_some]
          · rw [field_setField_of_ne (Ne.symm hp), if_neg (fun h ↦ hp (Option.some.inj h)),
              Option.elim_none]
        · by_cases hp : q = .tableName
          · rw [if_pos (by rw [hp]), Option.bind_some, hvalid hp]
          · rw [if_neg (fun h ↦ hp (Option.some.inj h)), Option.bind_none]
      · refine Or.inr (Or.inr ⟨e, h, ?_⟩)
        rw [if_pos rfl, Option.bind_some, he]

variable {pairs : List Text}

/-- **Each field is what its own pairs make of it.** -/
theorem field_of_mergePairs (h : c.mergePairs pairs = .ok c') (p : Param) :
    c'.field p = (p.values pairs).foldl p.overwrite (c.field p) := by
  induction pairs generalizing c with
  | nil =>
    rw [← Except.ok.inj h]
    rfl
  | cons pair pairs ih =>
    rw [mergePairs] at h
    rw [Param.values, List.filterMap_cons]
    rcases c.mergePair_cases pair with ⟨c₁, warned, hpair, hfield, -⟩ | ⟨hpair, hnone⟩ |
      ⟨e, hpair, -⟩
    · rw [hpair] at h
      rw [ih h, hfield p]
      cases pairValue p pair <;> rfl
    · rw [hpair] at h
      rw [ih h, hnone p, Param.values]
    · rw [hpair] at h
      simp at h

/-- **The loop fails with the first table name that is rejected**, and only with that. -/
theorem mergePairs_eq_error_iff {e : String} :
    c.mergePairs pairs = .error e ↔
      (Param.tableName.values pairs).findSome? Param.rejection = some e := by
  induction pairs generalizing c with
  | nil => simp [mergePairs, Param.values]
  | cons pair pairs ih =>
    rw [mergePairs, Param.findSome?_rejection_cons]
    rcases c.mergePair_cases pair with ⟨c₁, warned, hpair, -, hnone⟩ | ⟨hpair, hnone⟩ |
      ⟨e', hpair, hsome⟩
    · rw [hpair]
      rw [hnone, Option.none_or, ← ih]
    · rw [hpair]
      rw [hnone .tableName, Option.bind_none, Option.none_or, ← ih]
    · rw [hpair]
      rw [hsome, Option.some_or, Except.error.injEq, Option.some.injEq]

theorem exists_mergePairs_eq_error_iff : (∃ e, c.mergePairs pairs = .error e) ↔
    ∃ value ∈ Param.tableName.values pairs, ¬ValidIdentifier (String.ofList value) := by
  simp only [mergePairs_eq_error_iff, ← Option.isSome_iff_exists, List.findSome?_isSome_iff,
    Param.isSome_rejection_iff]

theorem mergePairs_congr {pairs' : List Text} (h : ∀ p, Param.values p pairs = p.values pairs') :
    c.mergePairs pairs = c.mergePairs pairs' := by
  cases hpairs' : c.mergePairs pairs' with
  | error e => rwa [mergePairs_eq_error_iff, h, ← mergePairs_eq_error_iff]
  | ok c₂ =>
    cases hpairs : c.mergePairs pairs with
    | error e =>
      rw [mergePairs_eq_error_iff, h, ← mergePairs_eq_error_iff, hpairs'] at hpairs
      simp at hpairs
    | ok c₁ =>
      refine congrArg Except.ok (ext_field fun p ↦ ?_)
      rw [field_of_mergePairs hpairs, field_of_mergePairs hpairs', h]

end PgConfig

/-! ## The order of the pairs -/

/-- The pair gives a value to this key. -/
def hasKey (key pair : Text) : Bool := (splitOnce '=' pair).map Prod.fst == some key

/-- Each key has the same pairs, in the same order. How those of different keys stand to each other
is left open. -/
def SameOrder (pairs pairs' : List Text) : Prop :=
  ∀ key, pairs.filter (hasKey key) = pairs'.filter (hasKey key)

theorem sameOrder_swap {a b : Text} (pairs : List Text)
    (h : (splitOnce '=' a).map Prod.fst ≠ (splitOnce '=' b).map Prod.fst) :
    SameOrder (a :: b :: pairs) (b :: a :: pairs) := by
  intro key
  by_cases ha : hasKey key a = true
  · have hb : ¬hasKey key b = true := fun hb ↦ h ((beq_iff_eq.mp ha).trans (beq_iff_eq.mp hb).symm)
    simp only [List.filter_cons, if_pos ha, if_neg hb]
  · simp only [List.filter_cons, if_neg ha]

theorem hasKey_of_pairValue {p : Param} {pair value : Text} (h : pairValue p pair = some value) :
    hasKey p.name.toList pair = true := by
  obtain ⟨kv, hsplit, hkv⟩ := Option.bind_eq_some_iff.mp h
  have hkey : Param.ofKey (String.ofList kv.1) = some p := by
    by_contra hne
    rw [if_neg hne] at hkv
    simp at hkv
  rw [hasKey, hsplit, ← Param.ofKey_eq_some_iff.mp hkey, String.toList_ofList]
  simp

theorem SameOrder.values_eq {pairs pairs' : List Text} (h : SameOrder pairs pairs') (p : Param) :
    p.values pairs = p.values pairs' := by
  have hown : ∀ l, p.values l = (l.filter (hasKey p.name.toList)).filterMap (pairValue p) := by
    intro l
    rw [Param.values, List.filterMap_filter]
    refine List.filterMap_congr fun pair _ ↦ ?_
    cases hvalue : pairValue p pair with
    | none => rw [ite_self]
    | some value => rw [if_pos (hasKey_of_pairValue hvalue)]
  rw [hown, hown, h]

/-! ## The whole query string -/

/-- With one `?` the loop goes over the pairs of the query. -/
theorem mergeUrlParams_eq (c : PgConfig) (u : QueryUrl) (h : '?' ∉ u.query) :
    c.mergeUrlParams u.url = c.mergePairs u.pairs := by
  rw [PgConfig.mergeUrlParams, PgConfig.queryOf_eq, u.splitOnce_url, Option.map_some,
    u.span_query.1, takeWhile_ne_of_not_mem h]
  rfl

/-- **URL parameters act independently of each other.** -/
theorem mergeUrlParams_independent (c : PgConfig) (u : QueryUrl) (hu : '?' ∉ u.query) :
    (∀ c', c.mergeUrlParams u.url = .ok c' →
        ∀ p, c'.field p = (p.values u.pairs).foldl p.overwrite (c.field p)) ∧
      ((∃ e, c.mergeUrlParams u.url = .error e) ↔
        ∃ value ∈ Param.tableName.values u.pairs, ¬ValidIdentifier (String.ofList value)) ∧
      ∀ v : QueryUrl, '?' ∉ v.query → SameOrder u.pairs v.pairs →
        c.mergeUrlParams u.url = c.mergeUrlParams v.url := by
  rw [mergeUrlParams_eq c u hu]
  refine ⟨fun c' h ↦ PgConfig.field_of_mergePairs h, PgConfig.exists_mergePairs_eq_error_iff,
    fun v hv h ↦ ?_⟩
  rw [mergeUrlParams_eq c v hv]
  exact PgConfig.mergePairs_congr h.values_eq

/-- A URL with this query. -/
def queryOnHost (query : Text) (h : '#' ∉ query) : QueryUrl where
  base := "postgres://localhost/db".toList
  query := query
  fragment := []
  base_shape := by decide +kernel
  query_shape := h
  fragment_shape := by simp

theorem mergeUrlParams_independent_swapped :
    PgConfig.mergeUrlParams default
        (queryOnHost "table_name=k&max_connections=7".toList (by decide +kernel)).url =
      PgConfig.mergeUrlParams default
        (queryOnHost "max_connections=7&table_name=k".toList (by decide +kernel)).url := by
  refine (mergeUrlParams_independent default
    (queryOnHost "table_name=k&max_connections=7".toList (by decide +kernel))
    (by decide +kernel)).2.2 _ (by decide +kernel) ?_
  have hpairs : (queryOnHost "table_name=k&max_connections=7".toList (by decide +kernel)).pairs =
      ["table_name=k".toList, "max_connections=7".toList] := by decide +kernel
  have hpairs' : (queryOnHost "max_connections=7&table_name=k".toList (by decide +kernel)).pairs =
      ["max_connections=7".toList, "table_name=k".toList] := by decide +kernel
  rw [hpairs, hpairs']
  exact sameOrder_swap [] (by decide +kernel)

/-! ## When the two readings of a URL agree -/

end SurrealPg
