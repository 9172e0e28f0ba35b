import SurrealPg.Config.Startup

/-!
# The sizes of the pool

The two sizes of the connection pool come from the URL, from the environment or from a default, in
this order. The loop over the query string keeps the last value it accepts; `from_env` replaces a
maximum of zero and lowers the minimum to the maximum of the environment; loading lowers a minimum
of the URL to its maximum; and the store lowers whichever minimum it has to the maximum it uses.

What the URL and the environment ask for is stated here without any of this clamping, and compared
with the sizes that come out. They agree on the maximum. A minimum of the environment has already
been lowered to a maximum which the URL may raise afterwards.
-/

namespace SurrealPg

open Text

/-! ## What is used -/

/-- `pool_max` of `PgStore::new`. -/
def poolMax (config : PgConfig) (tune : TuneConfig) : ℕ := config.maxConnections.getD tune.poolMax

/-- `pool_min` of `PgStore::new`. -/
def poolMin (config : PgConfig) (tune : TuneConfig) : ℕ :=
  min (config.minConnections.getD tune.poolMin) (poolMax config tune)

/-! ## What is asked for -/

/-- A maximum that the URL may set: a number that is not zero, of which 10000 are granted. -/
def acceptMax (value : Text) : Option ℕ :=
  (parseU32 value).bind fun v ↦ if v = 0 then none else some (min v 10000)

/-- A minimum that the URL may set. -/
def acceptMin (value : Text) : Option ℕ := (parseU32 value).map fun v ↦ min v 10000

/-- The decoded value of a pair `key=value` of the query string, if `p` is its parameter. -/
def pairValue (p : Param) (pair : Text) : Option Text :=
  (splitOnce '=' pair).bind fun kv ↦
    if Param.ofKey (String.ofList kv.1) = some p then some (percentDecode kv.2) else none

/-- The pairs of the query string. -/
def queryPairs (url : Text) : List Text := (PgConfig.queryOf url).elim [] (·.splitOn '&')

/-- The last value of the parameter that is accepted. -/
def lastAccepted (p : Param) (accept : Text → Option ℕ) (pairs : List Text) : Option ℕ :=
  (pairs.filterMap fun pair ↦ (pairValue p pair).bind accept).getLast?

def urlMax (url : Text) : Option ℕ := lastAccepted .maxConnections acceptMax (queryPairs url)

def urlMin (url : Text) : Option ℕ := lastAccepted .minConnections acceptMin (queryPairs url)

/-- The number in a variable of the environment. -/
def envNumber (env : Env) (key : String) : Option ℕ := (env key).bind fun raw ↦ parseU32 (trim raw)

/-- The maximum of the environment, which is not zero, or the default. -/
def envMax (env : Env) : ℕ :=
  ((envNumber env "PG_TUNED_POOL_MAX_CONNECTIONS").filter (· ≠ 0)).getD 20

/-- The minimum of the environment, or the default. -/
def envMin (env : Env) : ℕ := (envNumber env "PG_TUNED_POOL_MIN_CONNECTIONS").getD 5

/-- The maximum asked for. -/
def requestedMax (env : Env) (url : Text) : ℕ := (urlMax url).getD (envMax env)

/-- The minimum asked for. -/
def requestedMin (env : Env) (url : Text) : ℕ := (urlMin url).getD (envMin env)

/-- The sizes are those asked for, the minimum at most the maximum. -/
structure SizedAsDocumented (env : Env) (url : Text) (config : PgConfig) (tune : TuneConfig) :
    Prop where
  max_eq : poolMax config tune = requestedMax env url
  max_pos : 1 ≤ poolMax config tune
  min_eq : poolMin config tune = min (requestedMin env url) (poolMax config tune)

/-! ## The loop over the query string -/

theorem lastAccepted_cons (p : Param) (accept : Text → Option ℕ) (pair : Text)
    (pairs : List Text) : lastAccepted p accept (pair :: pairs) =
      (lastAccepted p accept pairs).or ((pairValue p pair).bind accept) := by
  rw [lastAccepted, lastAccepted, List.filterMap_cons]
  cases (pairValue p pair).bind accept with
  | none => exact Option.or_none.symm
  | some v =>
    dsimp only
    rw [List.getLast?_cons]
    cases (pairs.filterMap fun pair ↦ (pairValue p pair).bind accept).getLast? <;> rfl

/-- A field of the configuration that one parameter sets and the others leave alone. -/
structure SizeField where
  param : Param
  get : PgConfig → Option ℕ
  accept : Text → Option ℕ
  merge : ∀ {c c' : PgConfig} {value : Text} {q : Param} {warned : Bool},
    c.mergeParam value q = .ours c' warned →
    get c' = (if q = param then accept value else none).or (get c)

namespace SizeField

variable (F : SizeField)

theorem get_of_mergePair {c c' : PgConfig} {pair : Text} {warned : Bool}
    (h : c.mergePair pair = .ours c' warned) :
    F.get c' = ((pairValue F.param pair).bind F.accept).or (F.get c) := by
  rw [PgConfig.mergePair] at h
  rw [pairValue]
  cases hsplit : splitOnce '=' pair with
  | none =>
    simp only [hsplit] at h
    split_ifs at h
    obtain ⟨rfl, -⟩ := Treatment.ours.inj h
    rfl
  | some kv =>
    obtain ⟨key, value⟩ := kv
    simp only [hsplit] at h
    cases hkey : Param.ofKey (String.ofList key) with
    | none => simp [hkey] at h
    | some q =>
      simp only [hkey] at h
      rw [F.merge h, Option.bind_some]
      simp only [hkey, Option.some.injEq]
      split_ifs <;> rfl

theorem pairValue_of_theirs {c : PgConfig} {pair : Text} {p : Param}
    (h : c.mergePair pair = .theirs) : pairValue p pair = none := by
  rw [PgConfig.mergePair] at h
  rw [pairValue]
  cases hsplit : splitOnce '=' pair with
  | none => rfl
  | some kv =>
    simp only [hsplit] at h
    cases hkey : Param.ofKey (String.ofList kv.1) with
    | none => simp [hkey]
    | some q =>
      simp only [hkey] at h
      exact absurd h (PgConfig.mergeParam_ne_theirs c _ q)

/-- **The loop keeps the last value it accepts.** -/
theorem get_of_mergePairs {c c' : PgConfig} {pairs : List Text}
    (h : c.mergePairs pairs = .ok c') :
    F.get c' = (lastAccepted F.param F.accept pairs).or (F.get c) := by
  induction pairs generalizing c with
  | nil =>
    rw [← Except.ok.inj h]
    rfl
  | cons pair pairs ih =>
    rw [PgConfig.mergePairs] at h
    cases hpair : c.mergePair pair with
    | ours c₁ warned =>
      simp only [hpair] at h
      rw [ih h, F.get_of_mergePair hpair, ← Option.or_assoc, lastAccepted_cons]
    | refused e => simp [hpair] at h
    | theirs =>
      simp only [hpair] at h
      rw [ih h, lastAccepted_cons, pairValue_of_theirs hpair, Option.bind_none, Option.or_none]

end SizeField

namespace PgConfig

theorem mergeMaxConnections_eq (c : PgConfig) (value : Text) :
    ∃ warned, c.mergeMaxConnections value =
      .ours { c with maxConnections := (acceptMax value).or c.maxConnections } warned := by
  rw [mergeMaxConnections, acceptMax]
  rcases parseU32 value with _ | _ | v
  · exact ⟨true, rfl⟩
  · exact ⟨true, rfl⟩
  · by_cases hv : 10000 < v + 1
    · exact ⟨true, by simp [hv, hv.le]⟩
    · exact ⟨false, by simp [hv, not_lt.mp hv]⟩

theorem mergeMinConnections_eq (c : PgConfig) (value : Text) :
    ∃ warned, c.mergeMinConnections value =
      .ours { c with minConnections := (acceptMin value).or c.minConnections } warned := by
  rw [mergeMinConnections, acceptMin]
  rcases parseU32 value with _ | v
  · exact ⟨true, rfl⟩
  · by_cases hv : 10000 < v
    · exact ⟨true, by simp [hv, hv.le]⟩
    · exact ⟨v == 0, by simp [hv, not_lt.mp hv]⟩

end PgConfig

section

variable {c c' : PgConfig} {value : Text} {warned : Bool}

/-- Both sizes are as they were. -/
def SameSizes (c' c : PgConfig) : Prop :=
  c'.maxConnections = c.maxConnections ∧ c'.minConnections = c.minConnections

theorem sameSizes_of_applied {α : Type} {v : Option α} {f : α → PgConfig}
    (hf : ∀ a, SameSizes (f a) c) (h : c.applied v f = .ours c' warned) : SameSizes c' c := by
  cases v with
  | none =>
    obtain ⟨rfl, -⟩ := Treatment.ours.inj h
    exact ⟨rfl, rfl⟩
  | some a =>
    obtain ⟨rfl, -⟩ := Treatment.ours.inj h
    exact hf a

open PgConfig in
theorem sameSizes_of_mergeParam {q : Param} (hmax : q ≠ .maxConnections)
    (hmin : q ≠ .minConnections) (h : c.mergeParam value q = .ours c' warned) :
    SameSizes c' c := by
  cases q with
  | maxConnections => exact absurd rfl hmax
  | minConnections => exact absurd rfl hmin
  | tableName | isolationLevel | hashPartitions =>
    grind [mergeParam, mergeTableName, mergeIsolationLevel, mergeHashPartitions, SameSizes]
  | _ =>
    refine sameSizes_of_applied ?_ h
    exact fun _ ↦ ⟨rfl, rfl⟩

theorem sizes_of_mergeMaxConnections (h : c.mergeMaxConnections value = .ours c' warned) :
    c'.maxConnections = (acceptMax value).or c.maxConnections ∧
      c'.minConnections = c.minConnections := by
  obtain ⟨warned', heq⟩ := c.mergeMaxConnections_eq value
  obtain ⟨rfl, -⟩ := Treatment.ours.inj (heq.symm.trans h)
  exact ⟨rfl, rfl⟩

theorem sizes_of_mergeMinConnections (h : c.mergeMinConnections value = .ours c' warned) :
    c'.maxConnections = c.maxConnections ∧
      c'.minConnections = (acceptMin value).or c.minConnections := by
  obtain ⟨warned', heq⟩ := c.mergeMinConnections_eq value
  obtain ⟨rfl, -⟩ := Treatment.ours.inj (heq.symm.trans h)
  exact ⟨rfl, rfl⟩

/-- `max_connections` -/
def maxField : SizeField where
  param := .maxConnections
  get := PgConfig.maxConnections
  accept := acceptMax
  merge := by
    intro c c' value q warned h
    by_cases hmax : q = .maxConnections
    · subst hmax
      exact (sizes_of_mergeMaxConnections h).1
    · rw [if_neg hmax, Option.none_or]
      by_cases hmin : q = .minConnections
      · subst hmin
        exact (sizes_of_mergeMinConnections h).1
      · exact (sameSizes_of_mergeParam hmax hmin h).1

/-- `min_connections` -/
def minField : SizeField where
  param := .minConnections
  get := PgConfig.minConnections
  accept := acceptMin
  merge := by
    intro c c' value q warned h
    by_cases hmin : q = .minConnections
    · subst hmin
      exact (sizes_of_mergeMinConnections h).2
    · rw [if_neg hmin, Option.none_or]
      by_cases hmax : q = .maxConnections
      · subst hmax
        exact (sizes_of_mergeMaxConnections h).2
      · exact (sameSizes_of_mergeParam hmax hmin h).2

end

/-- The sizes of the URL, before they are compared with each other. -/
theorem sizes_of_mergeUrlParams {url : Text} {c : PgConfig}
    (h : PgConfig.mergeUrlParams default url = .ok c) :
    c.maxConnections = urlMax url ∧ c.minConnections = urlMin url := by
  rw [PgConfig.mergeUrlParams] at h
  rw [urlMax, urlMin, queryPairs]
  cases hquery : PgConfig.queryOf url with
  | none =>
    simp only [hquery] at h
    rw [← Except.ok.inj h]
    exact ⟨rfl, rfl⟩
  | some query =>
    simp only [hquery] at h
    have hmax := maxField.get_of_mergePairs h
    have hmin := minField.get_of_mergePairs h
    exact ⟨hmax.trans Option.or_none, hmin.trans Option.or_none⟩

/-! ## The sizes that come out -/

theorem sameSizes_mergeEnv (c : PgConfig) (env : Env) : SameSizes (c.mergeEnv env) c := by
  rw [PgConfig.mergeEnv]
  split
  · exact ⟨rfl, rfl⟩
  · exact ⟨rfl, rfl⟩

/-- Capping the minimum changes it only where the pool would. -/
theorem capMinConnections_sizes (c : PgConfig) :
    c.capMinConnections.maxConnections = c.maxConnections ∧
      ∀ lo hi, min (c.capMinConnections.minConnections.getD lo) (c.maxConnections.getD hi) =
        min (c.minConnections.getD lo) (c.maxConnections.getD hi) := by
  rw [PgConfig.capMinConnections]
  split
  · next lo hi hlo hhi =>
    split_ifs with hlt
    · refine ⟨rfl, fun _ _ ↦ ?_⟩
      rw [hlo, hhi, Option.getD_some, Option.getD_some, Option.getD_some]
      omega
    · exact ⟨rfl, fun _ _ ↦ rfl⟩
  · exact ⟨rfl, fun _ _ ↦ rfl⟩

section

variable {f : F64Text} {parse : Text → Except String Unit} {env : Env} {url : Text}
  {config : PgConfig} {tune : TuneConfig}

theorem loadConfig_of_accepted (h : accepted f parse env url = .ok (config, tune)) :
    loadConfig env url = .ok config ∧ tune = loadTune f env config := by
  rw [accepted] at h
  cases hconfig : loadConfig env url with
  | error e => simp [hconfig] at h
  | ok c =>
    simp only [hconfig] at h
    split_ifs at h
    split at h
    · simp at h
    · obtain ⟨rfl, rfl⟩ := Prod.mk.inj (Except.ok.inj h)
      exact ⟨rfl, rfl⟩

theorem sizes_of_loadConfig (h : loadConfig env url = .ok config) :
    config.maxConnections = urlMax url ∧
      ∀ lo hi, min (config.minConnections.getD lo) ((urlMax url).getD hi) =
        min ((urlMin url).getD lo) ((urlMax url).getD hi) := by
  rw [loadConfig] at h
  cases hurl : PgConfig.mergeUrlParams default url with
  | error e => simp [hurl] at h
  | ok c =>
    simp only [hurl] at h
    split at h
    · simp at h
    · obtain ⟨hmax, hmin⟩ := sizes_of_mergeUrlParams hurl
      obtain ⟨hmax', hmin'⟩ := sameSizes_mergeEnv c env
      obtain ⟨hcap, hcapmin⟩ := capMinConnections_sizes (c.mergeEnv env)
      rw [← Except.ok.inj h, hcap, hmax', hmax]
      refine ⟨rfl, fun lo hi ↦ ?_⟩
      have hsizes := hcapmin lo hi
      rwa [hmax', hmin', hmax, hmin] at hsizes

theorem envU32_eq (env : Env) (key : String) (d : ℕ) :
    envU32 env key d = (envNumber env key).getD d := by
  rw [envU32, envParsed.eq_def, envNumber]
  cases env key <;> rfl

/-- The environment has lowered its minimum to its own maximum. -/
theorem sizes_fromEnv (f : F64Text) (env : Env) :
    (TuneConfig.fromEnv f env).poolMax = envMax env ∧
      (TuneConfig.fromEnv f env).poolMin = min (envMin env) (envMax env) := by
  have hmax : TuneConfig.envPoolMax env = envMax env := by
    rw [TuneConfig.envPoolMax, envU32_eq, envMax, checked]
    cases envNumber env "PG_TUNED_POOL_MAX_CONNECTIONS" with
    | none => rfl
    | some n =>
      rw [Option.getD_some, Option.filter_some]
      split_ifs <;> rfl
  refine ⟨hmax, ?_⟩
  change min (envU32 env "PG_TUNED_POOL_MIN_CONNECTIONS" 5) (TuneConfig.envPoolMax env) = _
  rw [hmax, envU32_eq, envMin]

theorem sizes_loadTune (f : F64Text) (env : Env) (config : PgConfig) :
    (loadTune f env config).poolMax = envMax env ∧
      (loadTune f env config).poolMin = min (envMin env) (envMax env) := by
  obtain ⟨hmax, hmin⟩ := sizes_fromEnv f env
  rw [loadTune, TuneConfig.overridden]
  split
  · exact ⟨hmax, hmin⟩
  · split_ifs
    · exact ⟨hmax, hmin⟩
    · exact ⟨hmax, hmin⟩

/-- **The sizes of the pool**, in terms of what was asked for. -/
theorem sizes_of_accepted (h : accepted f parse env url = .ok (config, tune)) :
    poolMax config tune = requestedMax env url ∧
      poolMin config tune =
        min ((urlMin url).getD (min (envMin env) (envMax env))) (requestedMax env url) := by
  obtain ⟨hconfig, rfl⟩ := loadConfig_of_accepted h
  obtain ⟨hmax, hmin⟩ := sizes_of_loadConfig hconfig
  obtain ⟨htmax, htmin⟩ := sizes_loadTune f env config
  have hpool : poolMax config (loadTune f env config) = requestedMax env url := by
    rw [poolMax, hmax, htmax, requestedMax]
  refine ⟨hpool, ?_⟩
  rw [poolMin, hpool, htmin, requestedMax]
  exact hmin _ _

/-! ## What is asked for is positive -/

theorem pos_of_acceptMax {value : Text} {n : ℕ} (h : acceptMax value = some n) : 1 ≤ n := by
  obtain ⟨v, -, hv⟩ := Option.bind_eq_some_iff.mp h
  split_ifs at hv with hzero
  rw [← Option.some.inj hv]
  omega

theorem requestedMax_pos (env : Env) (url : Text) : 1 ≤ requestedMax env url := by
  rw [requestedMax]
  cases hurl : urlMax url with
  | none =>
    rw [Option.getD_none, envMax]
    cases henv : (envNumber env "PG_TUNED_POOL_MAX_CONNECTIONS").filter (· ≠ 0) with
    | none => decide
    | some n =>
      have hn := (Option.filter_eq_some_iff.mp henv).2
      exact Nat.one_le_iff_ne_zero.mpr (of_decide_eq_true hn)
  | some n =>
    have hmem := List.mem_of_getLast? hurl
    obtain ⟨pair, -, hpair⟩ := List.mem_filterMap.mp hmem
    obtain ⟨value, -, hvalue⟩ := Option.bind_eq_some_iff.mp hpair
    exact pos_of_acceptMax hvalue

/-- **The pool is sized as documented** unless the minimum of the environment is above the maximum
of the environment, and the URL raises the maximum and sets no minimum. -/
theorem sizedAsDocumented_iff (h : accepted f parse env url = .ok (config, tune)) :
    SizedAsDocumented env url config tune ↔
      (urlMin url).isSome = true ∨ envMin env ≤ envMax env ∨
        requestedMax env url ≤ envMax env := by
  obtain ⟨hmax, hmin⟩ := sizes_of_accepted h
  have hiff : SizedAsDocumented env url config tune ↔
      poolMin config tune = min (requestedMin env url) (poolMax config tune) :=
    ⟨SizedAsDocumented.min_eq, fun h ↦ ⟨hmax, hmax ▸ requestedMax_pos env url, h⟩⟩
  rw [hiff, hmin, hmax, requestedMin]
  cases urlMin url with
  | some n => simp
  | none =>
    rw [Option.getD_none, Option.getD_none, Option.isSome_none]
    simp only [Bool.false_eq_true, false_or]
    omega

end

/-- An environment with two sizes, the minimum above the maximum. -/
def crossedEnv : Env
  | "PG_TUNED_POOL_MAX_CONNECTIONS" => some "10".toList
  | "PG_TUNED_POOL_MIN_CONNECTIONS" => some "50".toList
  | _ => none

theorem exists_of_isOk (f : F64Text) (parse : Text → Except String Unit) (env : Env) (url : Text)
    (h : (accepted f parse env url).isOk = true) :
    ∃ config tune, accepted f parse env url = .ok (config, tune) := by
  rcases hr : accepted f parse env url with e | ⟨config, tune⟩
  · rw [hr] at h
    exact absurd h Bool.false_ne_true
  · exact ⟨config, tune, rfl⟩

/-- With both sizes in the URL, those of the environment do not matter. -/
theorem sizedAsDocumented_bothInUrl : ∃ config tune,
    SizedAsDocumented crossedEnv
      "postgres://host/db?min_connections=70&max_connections=100".toList config tune := by
  obtain ⟨config, tune, h⟩ := exists_of_isOk ⟨fun _ ↦ none, fun _ ↦ ([], 0)⟩ (fun _ ↦ .ok ())
    crossedEnv "postgres://host/db?min_connections=70&max_connections=100".toList
    (by decide +kernel)
  exact ⟨config, tune, (sizedAsDocumented_iff h).mpr (Or.inl (by decide +kernel))⟩

/-- A maximum in the URL does not bring back the minimum of the environment. -/
theorem not_sizedAsDocumented : ¬∀ f parse env url config tune,
    accepted f parse env url = .ok (config, tune) → SizedAsDocumented env url config tune := by
  intro hlaw
  obtain ⟨config, tune, h⟩ := exists_of_isOk ⟨fun _ ↦ none, fun _ ↦ ([], 0)⟩ (fun _ ↦ .ok ())
    crossedEnv "postgres://host/db?max_connections=100".toList (by decide +kernel)
  have hmin := (hlaw _ _ _ _ _ _ h).min_eq
  rw [(sizes_of_accepted h).1, (sizes_of_accepted h).2] at hmin
  exact absurd hmin (by decide +kernel)

end SurrealPg
