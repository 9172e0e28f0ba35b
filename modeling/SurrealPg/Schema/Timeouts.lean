import SurrealPg.Config.Duration
import SurrealPg.Schema.SqlText

/-!
# The timeouts of a session

A timeout is read as a `u64` of seconds, minutes, hours or milliseconds and written as seconds or as
milliseconds, by whether there are milliseconds beside the whole seconds. Nothing is lost as long as
the duration is a whole number of milliseconds, and everything that is read is one. Read again, the
text gives the same duration: what is written as seconds has seconds that fit, because they did when
it was read, and what is written as milliseconds was read as milliseconds.
-/

namespace SurrealPg

open Text

/-- What a timeout in an SQL text denotes: `Ns` is `N` seconds, and `Nms` is `N` milliseconds. -/
def Denotes (t : Text) (d : Duration) : Prop :=
  ∃ digits, isDecimal digits = true ∧
    (t = digits ++ ['s'] ∧ d = .fromSecs (decimalValue digits) ∨
      t = digits ++ ['m', 's'] ∧ d = .fromMillis (decimalValue digits))

/-! ## What is written -/

theorem decimalValue_natText (n : ℕ) : decimalValue (natText n) = n := by
  rw [TuneConfig.toList_natText, decimalValue, ← Nat.ofDigitChars_eq_foldl]
  exact Nat.ofDigitChars_ten_toDigits

theorem isDecimal_natText (n : ℕ) : isDecimal (natText n) = true := by
  rw [isDecimal, Bool.and_eq_true, Bool.not_eq_true', List.isEmpty_eq_false_iff, List.all_eq_true]
  exact ⟨TuneConfig.natText_ne_nil n, fun _ ↦ TuneConfig.isDigit_of_mem_natText⟩

theorem isNumeral_of_isDecimal {digits : Text} (h : isDecimal digits = true) :
    IsNumeral digits (decimalValue digits) :=
  ⟨[], List.mem_cons_self, digits, rfl, h, rfl⟩

/-- The unit `fmt_dur` writes. -/
def writtenUnit (d : Duration) : TimeUnit := if d.subsecMillis = 0 then .s else .ms

/-- How many of it. -/
def writtenCount (d : Duration) : ℕ := if d.subsecMillis = 0 then d.asSecs else d.asMillis

section

variable (f : F64Text) (d : Duration)

theorem write_fmtDur :
    (fmtDur d).write f = natText (writtenCount d) ++ (writtenUnit d).suffix := by
  rw [fmtDur, writtenCount, writtenUnit]
  split_ifs <;> rfl

theorem spells_write_fmtDur : Spells ((fmtDur d).write f) (writtenCount d) (writtenUnit d) := by
  refine ⟨natText (writtenCount d), write_fmtDur f d, ?_⟩
  have hnumeral := isNumeral_of_isDecimal (isDecimal_natText (writtenCount d))
  rwa [decimalValue_natText] at hnumeral

theorem trim_write_fmtDur : trim ((fmtDur d).write f) = (fmtDur d).write f := by
  refine trim_of_forall fun c hc ↦ ?_
  rw [write_fmtDur, List.mem_append] at hc
  rcases hc with hc | hc
  · exact isWhiteSpace_of_isDigit (TuneConfig.isDigit_of_mem_natText hc)
  · have hsuffix : ∀ u : TimeUnit, u.suffix.all (!isWhiteSpace ·) = true := by
      intro u
      cases u <;> rfl
    simpa using List.all_eq_true.mp (hsuffix _) c hc

end

/-! ## What is denoted -/

theorem Denotes.spells {t : Text} {d : Duration} (h : Denotes t d) :
    ∃ n u, Spells t n u ∧ d = u.duration n := by
  obtain ⟨digits, hdigits, ⟨rfl, rfl⟩ | ⟨rfl, rfl⟩⟩ := h
  · exact ⟨decimalValue digits, .s, ⟨digits, rfl, isNumeral_of_isDecimal hdigits⟩,
      (TimeUnit.duration_s _).symm⟩
  · exact ⟨decimalValue digits, .ms, ⟨digits, rfl, isNumeral_of_isDecimal hdigits⟩, rfl⟩

theorem denotes_write_fmtDur_iff {f : F64Text} {d d' : Duration} :
    Denotes ((fmtDur d).write f) d' ↔ d' = (writtenUnit d).duration (writtenCount d) := by
  constructor
  · intro h
    obtain ⟨n, u, hspells, rfl⟩ := h.spells
    obtain ⟨rfl, rfl⟩ := hspells.unique (spells_write_fmtDur f d)
    rfl
  · rintro rfl
    refine ⟨natText (writtenCount d), isDecimal_natText _, ?_⟩
    rw [decimalValue_natText, write_fmtDur, writtenUnit]
    split_ifs
    · exact Or.inl ⟨rfl, TimeUnit.duration_s _⟩
    · exact Or.inr ⟨rfl, rfl⟩

/-- **What is written denotes the duration** exactly if that is a whole number of milliseconds. -/
theorem duration_written_iff {d : Duration} :
    (writtenUnit d).duration (writtenCount d) = d ↔ 1000000 ∣ d.nanos := by
  obtain ⟨nanos⟩ := d
  rw [writtenUnit, writtenCount]
  split_ifs with h
  · rw [TimeUnit.duration_s, Duration.fromSecs, Duration.asSecs, Duration.mk.injEq]
    rw [Duration.subsecMillis, Duration.subsecNanos] at h
    dsimp only at h ⊢
    omega
  · rw [TimeUnit.duration, Duration.fromMillis, Duration.asMillis, Duration.mk.injEq]
    dsimp only
    omega

/-! ## What was read -/

section

variable {u : TimeUnit} {n : ℕ}

theorem dvd_nanos_fromSecs (secs : ℕ) : 1000000 ∣ (Duration.fromSecs secs).nanos :=
  Dvd.dvd.mul_left (by decide : 1000000 ∣ 1000000000) secs

theorem dvd_nanos_duration (u : TimeUnit) (n : ℕ) : 1000000 ∣ (u.duration n).nanos := by
  cases u with
  | ms => exact Nat.dvd_mul_left 1000000 n
  | s | m | h | bare => exact dvd_nanos_fromSecs _

theorem subsecMillis_duration (hu : u ≠ .ms) : (u.duration n).subsecMillis = 0 := by
  have hwhole : ∀ k, (Duration.fromSecs k).subsecMillis = 0 := by
    intro k
    rw [Duration.fromSecs, Duration.subsecMillis, Duration.subsecNanos, Nat.mul_mod_left]
  cases u with
  | ms => exact absurd rfl hu
  | s | m | h | bare => exact hwhole _

theorem written_fits (h : u.factor * n < 2 ^ 64) :
    (writtenUnit (u.duration n)).factor * writtenCount (u.duration n) < 2 ^ 64 := by
  rw [writtenUnit, writtenCount]
  split_ifs with hsub
  · exact (Nat.one_mul _).trans_lt (asSecs_duration_lt h)
  · -- with a part of a second, it was read as milliseconds
    obtain rfl : u = .ms := not_not.mp fun hu ↦ hsub (subsecMillis_duration hu)
    have hmillis : (TimeUnit.ms.duration n).asMillis = n := Nat.mul_div_cancel n (by decide)
    rwa [hmillis]

end

/-! ## From the environment to the session -/

section

variable {f : F64Text} {v : Text} {d : Duration}

theorem dvd_nanos_of_parseDuration (h : parseDuration v = some d) : 1000000 ∣ d.nanos := by
  obtain ⟨n, u, -, -, rfl⟩ := parseDuration_iff_spells.mp h
  exact dvd_nanos_duration u n

theorem denotes_fmtDur (h : 1000000 ∣ d.nanos) (d' : Duration) :
    Denotes ((fmtDur d).write f) d' ↔ d' = d := by
  rw [denotes_write_fmtDur_iff, duration_written_iff.mpr h]

end

/-- **A timeout reaches the session without loss.** What is written for a duration that was read
denotes that duration and no other, is read as it again, and is no number `0` unless the duration
is zero. -/
theorem write_fmtDur_of_parseDuration (f : F64Text) {v : Text} {d : Duration}
    (h : parseDuration v = some d) :
    (∀ d', Denotes ((fmtDur d).write f) d' ↔ d' = d) ∧
      parseDuration ((fmtDur d).write f) = some d ∧
      (d.isZero = false → ∀ n u, Spells ((fmtDur d).write f) n u → n ≠ 0) := by
  have hwhole := duration_written_iff.mpr (dvd_nanos_of_parseDuration h)
  have hspells := spells_write_fmtDur f d
  refine ⟨denotes_fmtDur (dvd_nanos_of_parseDuration h), ?_, ?_⟩
  · obtain ⟨n, u, -, hfits, rfl⟩ := parseDuration_iff_spells.mp h
    refine parseDuration_iff_spells.mpr
      ⟨writtenCount (u.duration n), writtenUnit (u.duration n), ?_, written_fits hfits, hwhole.symm⟩
    rwa [trim_write_fmtDur]
  · rintro hzero n u hn rfl
    obtain ⟨hcount, -⟩ := hspells.unique hn
    rw [← hwhole, hcount] at hzero
    have hall : ∀ u : TimeUnit, (u.duration 0).isZero = true := by
      intro u
      cases u <;> rfl
    rw [hall] at hzero
    exact absurd hzero (by decide)

/-- A part of a second is written in milliseconds. -/
theorem write_fmtDur_of_parseDuration_millis :
    (∀ d', Denotes ((fmtDur (.fromMillis 1500)).write ⟨fun _ ↦ none, fun _ ↦ ([], 0)⟩) d' ↔
        d' = .fromMillis 1500) ∧
      parseDuration ((fmtDur (.fromMillis 1500)).write ⟨fun _ ↦ none, fun _ ↦ ([], 0)⟩) =
        some (.fromMillis 1500) ∧
      ((Duration.fromMillis 1500).isZero = false → ∀ n u,
        Spells ((fmtDur (.fromMillis 1500)).write ⟨fun _ ↦ none, fun _ ↦ ([], 0)⟩) n u → n ≠ 0) :=
  write_fmtDur_of_parseDuration _
    (by decide +kernel : parseDuration " 1500ms".toList = some (.fromMillis 1500))

/-- The timeouts of every environment are whole milliseconds, the defaults included. -/
theorem denotes_timeouts_fromEnv (f : F64Text) (env : Env) :
    ∀ d ∈ [(TuneConfig.fromEnv f env).session.statementTimeout,
        (TuneConfig.fromEnv f env).session.idleTxnTimeout,
        (TuneConfig.fromEnv f env).session.lockTimeout],
      ∀ d', Denotes ((fmtDur d).write f) d' ↔ d' = d := by
  have hread : ∀ key secs, 1000000 ∣ (envDurationNonzero env key secs).nanos := by
    intro key secs
    refine (envDurationNonzero_iff (fun d ↦ 1000000 ∣ d.nanos) (dvd_nanos_fromSecs secs) ?_).mpr ?_
    · intro d hd
      rw [beq_iff_eq.mp hd]
      exact Nat.dvd_zero _
    · exact fun raw d _ h ↦ dvd_nanos_of_parseDuration h
  intro d hd
  apply denotes_fmtDur
  simp only [List.mem_cons, List.not_mem_nil, or_false] at hd
  rcases hd with rfl | rfl | rfl
  all_goals exact hread _ _

end SurrealPg
