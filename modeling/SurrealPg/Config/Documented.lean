import Mathlib.Data.List.DropRight
import SurrealPg.Config.Ranges

/-!
# The documented ranges

The comments beside each variable say which values `from_env` lets through. Most of the checks
replace what is out of range by a default that is in it, so the range holds whatever the environment
is. The exception is the one value that is clamped: a comparison with a NaN is false, so clamping
leaves a NaN as it is, and of the four fractions this is the one that is not tested for it first.
-/

namespace SurrealPg

open Text

/-! ## Memory sizes -/

/-- Digits, or digits and a unit. -/
def IsMemorySize (v : Text) : Prop :=
  ∃ digits, ∃ unit ∈ ["", "kB", "MB", "GB", "TB"],
    v = digits ++ unit.toList ∧ isDecimal digits = true

theorem trim_trim (v : Text) : trim (trim v) = trim v := by
  have hfirst : (trim v).dropWhile isWhiteSpace = trim v := by
    apply List.dropWhile_eq_self_iff.mpr
    intro hlen
    -- what is left after trimming begins as the text does after its leading spaces
    have hprefix : trim v <+: v.dropWhile isWhiteSpace := List.rdropWhile_prefix _ _
    have hself := List.dropWhile_eq_self_iff.mp
      (List.dropWhile_idempotent isWhiteSpace v) (hlen.trans_le hprefix.length_le)
    rwa [← hprefix.getElem hlen] at hself
  calc trim (trim v) = ((trim v).dropWhile isWhiteSpace).rdropWhile isWhiteSpace := rfl
    _ = (trim v).rdropWhile isWhiteSpace := by rw [hfirst]
    _ = trim v := List.rdropWhile_idempotent _ _

theorem isMemorySize_of_validatePgMemorySize {v : Text} (htrim : trim v = v)
    (h : validatePgMemorySize (String.ofList v) = true) : IsMemorySize v := by
  rw [validatePgMemorySize, String.toList_ofList, htrim] at h
  dsimp only at h
  split_ifs at h with hempty hdigits
  · refine ⟨v, "", List.mem_cons_self, (List.append_nil v).symm, ?_⟩
    rw [isDecimal, hdigits, Bool.not_eq_true] at *
    rw [hempty]
    rfl
  · split at h
    · exact absurd h Bool.false_ne_true
    · rename_i suffix hfind
      have hsuffix := List.find?_some hfind
      have hmem := List.mem_of_find?_eq_some hfind
      have hunit : suffix.toList.length = 2 ∧ suffix ∈ ["", "kB", "MB", "GB", "TB"] := by
        revert hmem
        clear hfind hsuffix
        revert suffix
        decide +kernel
      obtain ⟨stem, rfl⟩ := List.isSuffixOf_iff_suffix.mp hsuffix
      have htake : (stem ++ suffix.toList).take ((stem ++ suffix.toList).length - 2) = stem := by
        rw [List.length_append, hunit.1, Nat.add_sub_cancel, List.take_left]
      rw [htake] at h
      exact ⟨stem, suffix, hunit.2, rfl, h⟩

theorem isMemorySize_envStrValidated (env : Env) (key : String) {d : String}
    (hd : IsMemorySize d.toList) :
    IsMemorySize (envStrValidated env key d validatePgMemorySize).toList := by
  refine (envStrValidated_iff (fun s ↦ IsMemorySize s.toList) hd).mpr fun raw _ hvalid ↦ ?_
  rw [String.toList_ofList]
  exact isMemorySize_of_validatePgMemorySize (trim_trim raw) hvalid

/-! ## The ranges -/

namespace TuneConfig

/-- The eight durations. -/
def durations (t : TuneConfig) : List Duration :=
  [t.poolAcquireTimeout, t.poolIdleTimeout, t.poolMaxLifetime, t.session.keepaliveIdle,
   t.session.keepaliveInterval, t.session.statementTimeout, t.session.idleTxnTimeout,
   t.session.lockTimeout]

/-- The memory sizes, as they are stored. -/
def memorySizes (t : TuneConfig) : List String :=
  [t.serverSharedBuffers, t.session.serverWorkMem, t.session.serverMaintenanceWorkMem,
   t.serverWalBuffers, t.session.serverEffectiveCacheSize]

/-- What is documented of a configuration. That the page cost is finite is in its type. -/
structure InDocumentedRanges (t : TuneConfig) : Prop where
  poolMax : 1 ≤ t.poolMax
  poolMin : t.poolMin ≤ t.poolMax
  durations : ∀ d ∈ t.durations, d.isZero = false
  keepaliveCount : 1 ≤ t.session.keepaliveCount.toNat ∧ t.session.keepaliveCount.toNat ≤ 100
  fillfactor : 1 ≤ t.fillfactor ∧ t.fillfactor ≤ 100
  toastThreshold : 128 ≤ t.toastThreshold ∧ t.toastThreshold ≤ 8160
  hashPartitions : 1 ≤ t.hashPartitions ∧ t.hashPartitions ≤ 1024
  scales : ∀ v ∈ [t.autovacVacuumScale, t.autovacAnalyzeScale],
    v.isFinite = true ∧ v.inUnit = true
  autovac : ∀ v ∈ [t.autovacVacuumThreshold, t.autovacVacuumCostLimit, t.autovacVacuumCostDelay],
    0 ≤ v
  statsTarget : -1 ≤ t.session.statsTarget ∧ t.session.statsTarget ≤ 10000
  serverMaxConnections : 1 ≤ t.serverMaxConnections ∧ t.serverMaxConnections ≤ 10000
  serverRandomPageCost : 0 < t.session.serverRandomPageCost
  serverCheckpointTarget : t.serverCheckpointTarget.inUnit = true
  toastStorage : t.toastStorage ∈ ["external", "extended", "main", "plain"]
  memorySizes : ∀ s ∈ t.memorySizes, IsMemorySize s.toList

end TuneConfig

/-- Clamping puts everything into the unit interval but a NaN. -/
theorem inUnit_clampUnit_iff (v : F64) : v.clampUnit.inUnit = true ↔ v ≠ .nan := by
  cases v with
  | nan => simp [F64.clampUnit, F64.inUnit]
  | infinite negative => cases negative <;> simp [F64.clampUnit, F64.inUnit]
  | negativeZero => simp [F64.clampUnit, F64.inUnit]
  | finite q =>
    refine iff_of_true ?_ (by simp)
    rw [F64.clampUnit, F64.inUnit, Bool.and_eq_true, decide_eq_true_iff, decide_eq_true_iff]
    split_ifs with hneg hone
    · decide +kernel
    · decide +kernel
    · exact ⟨Rat.not_lt.mp hneg, Rat.not_lt.mp hone⟩

theorem isZero_envDurationNonzero {env : Env} {key : String} {secs : ℕ} (h : secs ≠ 0) :
    (envDurationNonzero env key secs).isZero = false := by
  have hdefault : (Duration.fromSecs secs).isZero = false := by
    rw [Duration.isZero, Duration.fromSecs, beq_eq_false_iff_ne]
    exact Nat.mul_ne_zero h (by decide)
  rw [envDurationNonzero]
  cases env key with
  | none => exact hdefault
  | some raw =>
    dsimp only
    cases parseDuration raw with
    | none => exact hdefault
    | some d =>
      dsimp only
      split_ifs with hzero
      · exact hdefault
      · exact Bool.eq_false_iff.mpr hzero

namespace TuneConfig

variable (f : F64Text) (env : Env)

theorem envPoolMax_pos : 1 ≤ envPoolMax env := by
  have h := checked_of (fun v : ℕ ↦ decide (v ≠ 0))
    (envU32 env "PG_TUNED_POOL_MAX_CONNECTIONS" 20) (d := 20) rfl
  rw [decide_eq_true_iff] at h
  exact Nat.one_le_iff_ne_zero.mpr h

theorem keepaliveCount_fromEnv : 1 ≤ (fromEnv f env).session.keepaliveCount.toNat ∧
    (fromEnv f env).session.keepaliveCount.toNat ≤ 100 := by
  have h := checked_of (fun v : ℕ ↦ v ≠ 0 && v ≤ 100)
    (envU32 env "PG_TUNED_KEEPALIVE_COUNT" 5) (d := 5) rfl
  rw [Bool.and_eq_true, decide_eq_true_iff, decide_eq_true_iff] at h
  simp only [fromEnv, envSession]
  rw [UInt32.toNat_ofNat', Nat.mod_eq_of_lt (h.2.trans_lt (by decide))]
  exact ⟨Nat.one_le_iff_ne_zero.mpr h.1, h.2⟩

theorem scales_fromEnv :
    ∀ v ∈ [(fromEnv f env).autovacVacuumScale, (fromEnv f env).autovacAnalyzeScale],
      v.isFinite = true ∧ v.inUnit = true := by
  have hscale : ∀ v d : F64, (d.isFinite && d.inUnit) = true →
      (checked (fun v ↦ v.isFinite && v.inUnit) v d).isFinite = true ∧
        (checked (fun v ↦ v.isFinite && v.inUnit) v d).inUnit = true := fun v d hd ↦
    Bool.and_eq_true_iff.mp (checked_of (fun v : F64 ↦ v.isFinite && v.inUnit) v hd)
  rw [List.forall_mem_cons, List.forall_mem_singleton]
  exact ⟨hscale _ _ (by decide +kernel), hscale _ _ (by decide +kernel)⟩

theorem autovac_fromEnv : ∀ v ∈ [(fromEnv f env).autovacVacuumThreshold,
    (fromEnv f env).autovacVacuumCostLimit, (fromEnv f env).autovacVacuumCostDelay], 0 ≤ v := by
  have hnonneg : ∀ v d : ℤ, decide (0 ≤ d) = true → 0 ≤ checked (0 ≤ ·) v d :=
    fun v d hd ↦ of_decide_eq_true (checked_of (fun v : ℤ ↦ 0 ≤ v) v hd)
  rw [List.forall_mem_cons, List.forall_mem_cons, List.forall_mem_singleton]
  exact ⟨hnonneg _ _ rfl, hnonneg _ _ rfl, hnonneg _ _ rfl⟩

theorem toastStorage_fromEnv :
    (fromEnv f env).toastStorage ∈ ["external", "extended", "main", "plain"] := by
  have h : validateToastStorage (fromEnv f env).toastStorage = true :=
    envStrValidated_of (by decide +kernel)
  exact List.contains_iff_mem.mp h

theorem durations_fromEnv : ∀ d ∈ (fromEnv f env).durations, d.isZero = false := by
  simp only [durations, fromEnv, envSession, List.forall_mem_cons, List.not_mem_nil]
  refine ⟨?_, ?_, ?_, ?_, ?_, ?_, ?_, ?_, fun _ h ↦ h.elim⟩
  all_goals exact isZero_envDurationNonzero (by decide)

theorem memorySizes_fromEnv : ∀ s ∈ (fromEnv f env).memorySizes, IsMemorySize s.toList := by
  have hdefault : ∀ digits : String, ∀ unit ∈ ["", "kB", "MB", "GB", "TB"],
      isDecimal digits.toList = true → IsMemorySize (digits ++ unit).toList :=
    fun digits unit hunit hdigits ↦ ⟨digits.toList, unit, hunit, String.toList_append, hdigits⟩
  simp only [memorySizes, fromEnv, envSession, List.forall_mem_cons, List.not_mem_nil]
  refine ⟨?_, ?_, ?_, ?_, ?_, fun _ h ↦ h.elim⟩
  · exact isMemorySize_envStrValidated env _
      (hdefault "256" "MB" (by decide +kernel) (by decide +kernel))
  · exact isMemorySize_envStrValidated env _
      (hdefault "64" "MB" (by decide +kernel) (by decide +kernel))
  · exact isMemorySize_envStrValidated env _
      (hdefault "256" "MB" (by decide +kernel) (by decide +kernel))
  · exact isMemorySize_envStrValidated env _
      (hdefault "16" "MB" (by decide +kernel) (by decide +kernel))
  · exact isMemorySize_envStrValidated env _
      (hdefault "1" "GB" (by decide +kernel) (by decide +kernel))

theorem serverCheckpointTarget_fromEnv_iff :
    (fromEnv f env).serverCheckpointTarget.inUnit = true ↔
      ∀ raw, env "PG_TUNED_SERVER_CHECKPOINT_TARGET" = some raw →
        f.parse (trim raw) ≠ some .nan := by
  refine (inUnit_clampUnit_iff _).trans ?_
  rw [envF64, envParsed]
  cases env "PG_TUNED_SERVER_CHECKPOINT_TARGET" with
  | none => simp
  | some raw =>
    cases hparse : f.parse (trim raw) with
    | none => simp [hparse]
    | some v => simp [hparse]

theorem checked_bounds {lo hi : ℤ} (v : ℤ) {d : ℤ}
    (hd : (decide (lo ≤ d) && decide (d ≤ hi)) = true) :
    lo ≤ checked (fun v ↦ lo ≤ v && v ≤ hi) v d ∧ checked (fun v ↦ lo ≤ v && v ≤ hi) v d ≤ hi := by
  have h := checked_of (fun v : ℤ ↦ lo ≤ v && v ≤ hi) v hd
  rwa [Bool.and_eq_true, decide_eq_true_iff, decide_eq_true_iff] at h

/-- **The configuration is in its documented ranges** exactly if the checkpoint target is not set to
a NaN. -/
theorem inDocumentedRanges_fromEnv_iff (f : F64Text) (env : Env) :
    (fromEnv f env).InDocumentedRanges ↔
      ∀ raw, env "PG_TUNED_SERVER_CHECKPOINT_TARGET" = some raw →
        f.parse (trim raw) ≠ some .nan := by
  rw [← serverCheckpointTarget_fromEnv_iff f env]
  refine ⟨InDocumentedRanges.serverCheckpointTarget, fun htarget ↦ ?_⟩
  exact {
    poolMax := envPoolMax_pos env
    poolMin := Nat.min_le_right _ _
    durations := durations_fromEnv f env
    keepaliveCount := keepaliveCount_fromEnv f env
    fillfactor := checked_bounds _ rfl
    toastThreshold := checked_bounds _ rfl
    hashPartitions := (fromEnv_hashPartitions f env).imp Nat.one_le_iff_ne_zero.mpr id
    scales := scales_fromEnv f env
    autovac := autovac_fromEnv f env
    statsTarget := checked_bounds _ rfl
    serverMaxConnections := checked_bounds _ rfl
    serverRandomPageCost := envRandomPageCost_pos f env
    serverCheckpointTarget := htarget
    toastStorage := toastStorage_fromEnv f env
    memorySizes := memorySizes_fromEnv f env }

/-- The standard library reads `NaN` as a NaN, and it stays one. -/
theorem not_inDocumentedRanges_nan :
    ¬∀ (f : F64Text) (env : Env), (fromEnv f env).InDocumentedRanges := by
  intro h
  have hnan := (h ⟨fun v ↦ if v = "NaN".toList then some .nan else none, fun _ ↦ ([], 0)⟩
    fun key ↦ if key = "PG_TUNED_SERVER_CHECKPOINT_TARGET" then some "NaN".toList else none)
  exact absurd hnan.serverCheckpointTarget (by decide +kernel)

end TuneConfig

end SurrealPg
