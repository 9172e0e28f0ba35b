import SurrealPg.Config.Startup

/-!
# Ranges of the settings

PostgreSQL refuses a setting whose value is out of range, and with it the message it is part of: the
session SQL, without which no connection is usable, or the tuning of the table. The values come
from the environment, each through a parser and a check that were written by hand, so the question
is which assignments of the environment let through a value the server refuses. The answer is given
variable by variable: the three timeouts have no upper bound of their own, the statistics target
may be `-1` or `0`, the memory size may be of any magnitude, and three checks of the table
parameters have other bounds than the server.
-/

namespace SurrealPg

open Postgres Text

/-! ## What the server accepts -/

/-- `INT_MAX` -/
def INT_MAX : ℕ := 2147483647

/-- The number of kilobytes a memory size stands for; a bare number is one of kilobytes. -/
def memoryKb (v : Text) : ℕ :=
  match stripSuffix ['k', 'B'] v with
  | some n => decimalValue n
  | none =>
    match stripSuffix ['M', 'B'] v with
    | some n => decimalValue n * 1024
    | none =>
      match stripSuffix ['G', 'B'] v with
      | some n => decimalValue n * 1024 ^ 2
      | none =>
        match stripSuffix ['T', 'B'] v with
        | some n => decimalValue n * 1024 ^ 3
        | none => decimalValue v

/-- A timeout fits into a 32-bit number of milliseconds. -/
def TimeoutInRange (g : Guc) : Prop := ∃ n ≤ INT_MAX, g.stored = .millis n

def StatsTargetInRange (v : ℤ) : Prop := 1 ≤ v ∧ v ≤ 10000

def WorkMemInRange (kb : ℕ) : Prop := 64 ≤ kb ∧ kb ≤ INT_MAX

def FillfactorInRange (v : ℤ) : Prop := 10 ≤ v ∧ v ≤ 100

def CostLimitInRange (v : ℤ) : Prop := 1 ≤ v ∧ v ≤ 10000

def CostDelayInRange (v : ℤ) : Prop := 0 ≤ v ∧ v ≤ 100

/-- Whether the server accepts a `SET` of the session SQL, as far as its ranges are known here. -/
def SettingInRange : String × Guc → Prop
  | ("statement_timeout", g) | ("idle_in_transaction_session_timeout", g) | ("lock_timeout", g) =>
    TimeoutInRange g
  | ("default_statistics_target", g) => ∃ v, g = .int v ∧ StatsTargetInRange v
  | ("work_mem", g) => ∃ s, g = .text s ∧ WorkMemInRange (memoryKb s.toList)
  | _ => True

/-- Whether it accepts a storage parameter. -/
def OptionInRange : String × ParamValue → Prop
  | ("fillfactor", p) => ∃ v, p = .int v ∧ FillfactorInRange v
  | ("toast_tuple_target", p) => ∃ v, p = .int v ∧ 128 ≤ v ∧ v ≤ 8160
  | ("autovacuum_vacuum_cost_limit", p) => ∃ v, p = .int v ∧ CostLimitInRange v
  | ("autovacuum_vacuum_cost_delay", p) => ∃ v, p = .int v ∧ CostDelayInRange v
  | _ => True

/-- Every value that the session SQL or the tuning text writes is in the range of its setting. -/
def TuneConfig.AllInRange (t : TuneConfig) : Prop :=
  (∀ p ∈ t.session.sessionSettings, SettingInRange p) ∧
    ∀ p ∈ t.storageOptions ++ t.autovacuumOptions, OptionInRange p

/-! ## Reading one variable

A value that is kept is the parsed one, if it passes its check, or the default. -/

section

variable {α : Type} {env : Env} {key : String}

theorem checked_envParsed_iff (P : α → Prop) {parse : Text → Option α} {ok : α → Bool} {d : α}
    (hd : P d) : P (checked ok (envParsed parse env key d) d) ↔
      ∀ raw v, env key = some raw → parse (trim raw) = some v → ok v = true → P v := by
  have hchecked : ∀ v, P (checked ok v d) ↔ (ok v = true → P v) := by
    intro v
    rw [checked]
    split_ifs with h
    · exact ⟨fun hv _ ↦ hv, fun hv ↦ hv h⟩
    · exact iff_of_true hd fun hok ↦ absurd hok h
  rw [hchecked, envParsed]
  cases henv : env key with
  | none => exact iff_of_true (fun _ ↦ hd) fun raw _ h ↦ (Option.some_ne_none raw h.symm).elim
  | some raw =>
    simp only [Option.some.injEq]
    cases hparse : parse (trim raw) with
    | none =>
      refine iff_of_true (fun _ ↦ hd) ?_
      rintro raw' v rfl hv
      rw [hparse] at hv
      exact (Option.some_ne_none v hv.symm).elim
    | some v =>
      constructor
      · rintro h raw' v' rfl hv' hok
        rw [hparse] at hv'
        obtain rfl := Option.some.inj hv'
        exact h hok
      · intro h
        exact h raw v rfl hparse

theorem checked_envI32_iff (P : ℤ → Prop) {ok : ℤ → Bool} {d : ℤ} (hd : P d) :
    P (checked ok (envI32 env key d) d) ↔
      ∀ raw v, env key = some raw → parseI32 (trim raw) = some v → ok v = true → P v :=
  checked_envParsed_iff P hd

theorem envStrValidated_iff (P : String → Prop) {validate : String → Bool} {d : String}
    (hd : P d) : P (envStrValidated env key d validate) ↔
      ∀ raw, env key = some raw → validate (String.ofList (trim raw)) = true →
        P (String.ofList (trim raw)) := by
  rw [envStrValidated]
  cases henv : env key with
  | none => exact iff_of_true hd fun raw h ↦ (Option.some_ne_none raw h.symm).elim
  | some raw =>
    dsimp only
    split_ifs with h
    · constructor
      · rintro hv raw' heq -
        obtain rfl := Option.some.inj heq
        exact hv
      · intro hv
        exact hv raw rfl h
    · refine iff_of_true hd fun raw' heq hv ↦ ?_
      obtain rfl := Option.some.inj heq
      exact absurd hv h

/-- A duration is kept if it is not zero; for a bound it makes no difference. -/
theorem envDurationNonzero_iff (P : Duration → Prop) {secs : ℕ} (hd : P (.fromSecs secs))
    (hzero : ∀ d : Duration, d.isZero = true → P d) :
    P (envDurationNonzero env key secs) ↔
      ∀ raw d, env key = some raw → parseDuration raw = some d → P d := by
  rw [envDurationNonzero]
  cases henv : env key with
  | none => exact iff_of_true hd fun raw _ h ↦ (Option.some_ne_none raw h.symm).elim
  | some raw =>
    simp only [Option.some.injEq]
    cases hparse : parseDuration raw with
    | none =>
      refine iff_of_true hd ?_
      rintro raw' d rfl h
      rw [hparse] at h
      exact nomatch h
    | some d =>
      dsimp only
      have hall : (∀ raw' d', raw = raw' → parseDuration raw' = some d' → P d') ↔ P d := by
        constructor
        · intro h
          exact h raw d rfl hparse
        · rintro h raw' d' rfl hd'
          rw [hparse] at hd'
          exact Option.some.inj hd' ▸ h
      rw [hall]
      split_ifs with h
      · exact iff_of_true hd (hzero d h)
      · rfl

end

/-! ## What is written -/

theorem stored_fmtDur (d : Duration) : (fmtDur d).stored = .millis d.asMillis := by
  rw [fmtDur]
  split_ifs with h
  · rw [Guc.stored]
    congr 1
    rw [Duration.subsecMillis, Duration.subsecNanos] at h
    rw [Duration.asSecs, Duration.asMillis]
    omega
  · rfl

theorem timeoutInRange_fmtDur (d : Duration) :
    TimeoutInRange (fmtDur d) ↔ d.asMillis ≤ INT_MAX := by
  rw [TimeoutInRange, stored_fmtDur]
  constructor
  · rintro ⟨n, hn, heq⟩
    obtain rfl := Guc.millis.inj heq
    exact hn
  · intro h
    exact ⟨_, h, rfl⟩

theorem allInRange_iff (t : TuneConfig) :
    t.AllInRange ↔
      ((t.session.statementTimeout.asMillis ≤ INT_MAX ∧
        t.session.idleTxnTimeout.asMillis ≤ INT_MAX ∧
          t.session.lockTimeout.asMillis ≤ INT_MAX) ∧
        StatsTargetInRange t.session.statsTarget ∧
          WorkMemInRange (memoryKb t.session.serverWorkMem.toList)) ∧
      FillfactorInRange t.fillfactor ∧ (128 ≤ t.toastThreshold ∧ t.toastThreshold ≤ 8160) ∧
        CostLimitInRange t.autovacVacuumCostLimit ∧ CostDelayInRange t.autovacVacuumCostDelay := by
  simp [TuneConfig.AllInRange, PgTuneConfig.sessionSettings, TuneConfig.storageOptions,
    TuneConfig.autovacuumOptions, SettingInRange, OptionInRange, timeoutInRange_fmtDur, and_assoc]

/-- The variables of the environment are not set to a value that is let through and refused. -/
structure EnvInRange (env : Env) : Prop where
  timeouts : ∀ key ∈ ["PG_TUNED_QUERY_STATEMENT_TIMEOUT", "PG_TUNED_QUERY_IDLE_TXN_TIMEOUT",
      "PG_TUNED_QUERY_LOCK_TIMEOUT"],
    ∀ raw d, env key = some raw → parseDuration raw = some d → d.asMillis ≤ INT_MAX
  statsTarget : ∀ raw v, env "PG_TUNED_QUERY_STATS_TARGET" = some raw →
    parseI32 (trim raw) = some v → v ≠ -1 ∧ v ≠ 0
  workMem : ∀ raw, env "PG_TUNED_SERVER_WORK_MEM" = some raw →
    validatePgMemorySize (String.ofList (trim raw)) = true → WorkMemInRange (memoryKb (trim raw))
  fillfactor : ∀ raw v, env "PG_TUNED_TABLE_FILLFACTOR" = some raw →
    parseI32 (trim raw) = some v → v < 1 ∨ 10 ≤ v
  costLimit : ∀ raw v, env "PG_TUNED_AUTOVAC_VACUUM_COST_LIMIT" = some raw →
    parseI32 (trim raw) = some v → v ≠ 0 ∧ v ≤ 10000
  costDelay : ∀ raw v, env "PG_TUNED_AUTOVAC_VACUUM_COST_DELAY" = some raw →
    parseI32 (trim raw) = some v → v ≤ 100

section

variable (f : F64Text) (env : Env)

theorem timeout_inRange_iff (key : String) (secs : ℕ)
    (hd : (Duration.fromSecs secs).asMillis ≤ INT_MAX) :
    (envDurationNonzero env key secs).asMillis ≤ INT_MAX ↔
      ∀ raw d, env key = some raw → parseDuration raw = some d → d.asMillis ≤ INT_MAX := by
  refine envDurationNonzero_iff (fun d ↦ d.asMillis ≤ INT_MAX) hd fun d hzero ↦ ?_
  rw [Duration.isZero, beq_iff_eq] at hzero
  simp [Duration.asMillis, hzero]

/-- The check of the target lets `-1` and `0` through. -/
theorem statsTarget_inRange_iff :
    StatsTargetInRange (TuneConfig.fromEnv f env).session.statsTarget ↔
      ∀ raw v, env "PG_TUNED_QUERY_STATS_TARGET" = some raw →
        parseI32 (trim raw) = some v → v ≠ -1 ∧ v ≠ 0 := by
  have hd : StatsTargetInRange 500 := ⟨by decide, by decide⟩
  simp only [TuneConfig.fromEnv, TuneConfig.envSession]
  rw [checked_envI32_iff StatsTargetInRange hd]
  simp only [StatsTargetInRange, Bool.and_eq_true, decide_eq_true_iff]
  refine forall₄_congr fun raw v _ _ ↦ ?_
  omega

/-- The validator of a memory size looks at its form only. -/
theorem workMem_inRange_iff :
    WorkMemInRange (memoryKb (TuneConfig.fromEnv f env).session.serverWorkMem.toList) ↔
      ∀ raw, env "PG_TUNED_SERVER_WORK_MEM" = some raw →
        validatePgMemorySize (String.ofList (trim raw)) = true →
          WorkMemInRange (memoryKb (trim raw)) := by
  have hd : WorkMemInRange (memoryKb ("64MB" : String).toList) := by
    rw [WorkMemInRange]
    decide +kernel
  refine (envStrValidated_iff (fun s ↦ WorkMemInRange (memoryKb s.toList)) hd).trans ?_
  simp only [String.toList_ofList]

/-- A fill factor from 1 to 9 passes the check. -/
theorem fillfactor_inRange_iff :
    FillfactorInRange (TuneConfig.fromEnv f env).fillfactor ↔
      ∀ raw v, env "PG_TUNED_TABLE_FILLFACTOR" = some raw →
        parseI32 (trim raw) = some v → v < 1 ∨ 10 ≤ v := by
  have hd : FillfactorInRange 90 := ⟨by decide, by decide⟩
  simp only [TuneConfig.fromEnv, TuneConfig.envSession]
  rw [checked_envI32_iff FillfactorInRange hd]
  simp only [FillfactorInRange, Bool.and_eq_true, decide_eq_true_iff]
  refine forall₄_congr fun raw v _ _ ↦ ?_
  omega

theorem toastThreshold_inRange :
    128 ≤ (TuneConfig.fromEnv f env).toastThreshold ∧
      (TuneConfig.fromEnv f env).toastThreshold ≤ 8160 := by
  have h := checked_of (fun v : ℤ ↦ 128 ≤ v && v ≤ 8160)
    (envI32 env "PG_TUNED_TABLE_TOAST_THRESHOLD" 2032) (d := 2032) rfl
  rwa [Bool.and_eq_true, decide_eq_true_iff, decide_eq_true_iff] at h

theorem costLimit_inRange_iff :
    CostLimitInRange (TuneConfig.fromEnv f env).autovacVacuumCostLimit ↔
      ∀ raw v, env "PG_TUNED_AUTOVAC_VACUUM_COST_LIMIT" = some raw →
        parseI32 (trim raw) = some v → v ≠ 0 ∧ v ≤ 10000 := by
  have hd : CostLimitInRange 2000 := ⟨by decide, by decide⟩
  simp only [TuneConfig.fromEnv, TuneConfig.envSession]
  rw [checked_envI32_iff CostLimitInRange hd]
  simp only [CostLimitInRange, decide_eq_true_iff]
  refine forall₄_congr fun raw v _ _ ↦ ?_
  omega

theorem costDelay_inRange_iff :
    CostDelayInRange (TuneConfig.fromEnv f env).autovacVacuumCostDelay ↔
      ∀ raw v, env "PG_TUNED_AUTOVAC_VACUUM_COST_DELAY" = some raw →
        parseI32 (trim raw) = some v → v ≤ 100 := by
  have hd : CostDelayInRange 1 := ⟨by decide, by decide⟩
  simp only [TuneConfig.fromEnv, TuneConfig.envSession]
  rw [checked_envI32_iff CostDelayInRange hd]
  simp only [CostDelayInRange, decide_eq_true_iff]
  refine forall₄_congr fun raw v _ _ ↦ ?_
  omega

end

/-- **Every admitted tuning value is one the server accepts** exactly if no variable is set to one
of the values above. -/
theorem allInRange_fromEnv_iff (f : F64Text) (env : Env) :
    (TuneConfig.fromEnv f env).AllInRange ↔ EnvInRange env := by
  have htimeouts : ((TuneConfig.fromEnv f env).session.statementTimeout.asMillis ≤ INT_MAX ∧
      (TuneConfig.fromEnv f env).session.idleTxnTimeout.asMillis ≤ INT_MAX ∧
        (TuneConfig.fromEnv f env).session.lockTimeout.asMillis ≤ INT_MAX) ↔
      ∀ key ∈ ["PG_TUNED_QUERY_STATEMENT_TIMEOUT", "PG_TUNED_QUERY_IDLE_TXN_TIMEOUT",
        "PG_TUNED_QUERY_LOCK_TIMEOUT"],
      ∀ raw d, env key = some raw → parseDuration raw = some d → d.asMillis ≤ INT_MAX := by
    rw [List.forall_mem_cons, List.forall_mem_cons, List.forall_mem_singleton,
      ← timeout_inRange_iff env "PG_TUNED_QUERY_STATEMENT_TIMEOUT" 30 (by decide),
      ← timeout_inRange_iff env "PG_TUNED_QUERY_IDLE_TXN_TIMEOUT" 60 (by decide),
      ← timeout_inRange_iff env "PG_TUNED_QUERY_LOCK_TIMEOUT" 10 (by decide)]
    rfl
  rw [allInRange_iff, htimeouts, statsTarget_inRange_iff, workMem_inRange_iff,
    fillfactor_inRange_iff, costLimit_inRange_iff, costDelay_inRange_iff,
    and_iff_right (toastThreshold_inRange f env)]
  constructor
  · rintro ⟨⟨ht, hs, hw⟩, hf, hl, hd⟩
    exact ⟨ht, hs, hw, hf, hl, hd⟩
  · rintro ⟨ht, hs, hw, hf, hl, hd⟩
    exact ⟨⟨ht, hs, hw⟩, hf, hl, hd⟩

/-- A fill factor of 5 is kept, and the tuning of the table is refused for it; a statistics target
of 0 is kept, and every connection is. -/
theorem not_allInRange_fillfactor :
    ¬∀ env : Env, (TuneConfig.fromEnv ⟨fun _ ↦ none, fun _ ↦ ([], 0)⟩ env).AllInRange := by
  intro h
  have hff := (allInRange_iff _).mp (h fun key ↦
    if key = "PG_TUNED_TABLE_FILLFACTOR" then some ['5'] else none)
  exact absurd hff.2.1.1 (by decide +kernel)

end SurrealPg
