import SurrealPg.Config.Text

/-!
# The durations that are understood

The suffixes overlap: `5ms` also ends in an `s`, and what `ms` leaves behind ends in an `m`. They
are told apart by the number. It ends in a digit, so a text that is a number and a unit carries no
suffix that is tried before its own, and the one that is found is the one that was meant.
-/

namespace SurrealPg

namespace Text

/-! ## Numbers -/

/-- Digits denoting `n`, perhaps after a plus sign. -/
def IsNumeral (s : Text) (n : ℕ) : Prop :=
  ∃ sign ∈ [[], ['+']], ∃ digits,
    s = sign ++ digits ∧ isDecimal digits = true ∧ decimalValue digits = n

theorem isNumeral_iff {s : Text} {n : ℕ} :
    IsNumeral s n ↔ isDecimal (dropPlus s) = true ∧ decimalValue (dropPlus s) = n := by
  constructor
  · rintro ⟨sign, hsign, digits, rfl, hdigits, hn⟩
    have hdrop : dropPlus (sign ++ digits) = digits := by
      obtain rfl | rfl := List.mem_pair.mp hsign
      · -- a digit is not a plus sign
        rw [List.nil_append, dropPlus]
        rintro ds rfl
        exact absurd hdigits (by simp [isDecimal])
      · rfl
    rw [hdrop]
    exact ⟨hdigits, hn⟩
  · rintro ⟨hdigits, hn⟩
    by_cases hplus : ∃ ds, s = '+' :: ds
    · obtain ⟨ds, rfl⟩ := hplus
      exact ⟨['+'], by simp, ds, rfl, hdigits, hn⟩
    · have hdrop : dropPlus s = s := by
        rw [dropPlus]
        exact fun ds h ↦ hplus ⟨ds, h⟩
      rw [hdrop] at hdigits hn
      exact ⟨[], by simp, s, rfl, hdigits, hn⟩

theorem parseU64_eq_some_iff {s : Text} {n : ℕ} :
    parseU64 s = some n ↔ IsNumeral s n ∧ n < 2 ^ 64 := by
  rw [parseU64, parseUnsigned, isNumeral_iff]
  constructor
  · intro h
    split_ifs at h with hs
    obtain rfl := Option.some.inj h
    exact ⟨⟨hs.1, rfl⟩, by omega⟩
  · rintro ⟨⟨hdigits, rfl⟩, hn⟩
    exact if_pos ⟨hdigits, by omega⟩

theorem IsNumeral.eq_concat {s : Text} {n : ℕ} (h : IsNumeral s n) :
    ∃ t c, s = t ++ [c] ∧ c.isDigit = true := by
  obtain ⟨sign, -, digits, rfl, hdigits, -⟩ := h
  rw [isDecimal, Bool.and_eq_true, Bool.not_eq_true', List.isEmpty_eq_false_iff] at hdigits
  refine ⟨sign ++ digits.dropLast, digits.getLast hdigits.1, ?_, ?_⟩
  · rw [List.append_assoc, List.dropLast_append_getLast]
  · exact List.all_eq_true.mp hdigits.2 _ (List.getLast_mem _)

/-! ## Trimming -/

theorem isWhiteSpace_of_isDigit {c : Char} (h : c.isDigit = true) : isWhiteSpace c = false := by
  have hrange : 48 ≤ c.toNat ∧ c.toNat ≤ 57 := by
    simpa [Char.isDigit, UInt32.le_iff_toNat_le] using h
  simp only [isWhiteSpace, List.contains_eq_mem, List.mem_cons, List.not_mem_nil, or_false,
    Bool.decide_or, Bool.or_eq_false_iff, Bool.and_eq_false_imp, decide_eq_true_eq,
    decide_eq_false_iff_not]
  omega

theorem trim_of_forall {v : Text} (h : ∀ c ∈ v, isWhiteSpace c = false) : trim v = v := by
  have hdrop : ∀ l : Text, (∀ c ∈ l, isWhiteSpace c = false) → l.dropWhile isWhiteSpace = l := by
    intro l hl
    cases l with
    | nil => rfl
    | cons c l => rw [List.dropWhile_cons, hl c List.mem_cons_self, if_neg Bool.false_ne_true]
  rw [trim, hdrop v h, hdrop v.reverse fun c hc ↦ h c (List.mem_reverse.mp hc),
    List.reverse_reverse]

/-! ## Suffixes -/

theorem stripSuffix_eq_some_iff {t s r : Text} : stripSuffix t s = some r ↔ s = r ++ t := by
  rw [stripSuffix]
  constructor
  · intro h
    split_ifs at h with hsuffix
    obtain ⟨r', rfl⟩ := List.isSuffixOf_iff_suffix.mp hsuffix
    rw [List.length_append, Nat.add_sub_cancel, List.take_left] at h
    rw [Option.some.inj h]
  · rintro rfl
    rw [if_pos (List.isSuffixOf_iff_suffix.mpr (List.suffix_append r t)), List.length_append,
      Nat.add_sub_cancel, List.take_left]

theorem ne_append_of_stripSuffix_eq_none {t s : Text} (h : stripSuffix t s = none) (r : Text) :
    s ≠ r ++ t := by
  intro heq
  rw [stripSuffix_eq_some_iff.mpr heq] at h
  exact absurd h (Option.some_ne_none r)

/-! ## Units -/

/-- What a number of a duration counts; a bare number counts seconds. -/
inductive TimeUnit
  | ms | s | m | h | bare
  deriving DecidableEq

namespace TimeUnit

def suffix : TimeUnit → Text
  | ms => ['m', 's']
  | s => ['s']
  | m => ['m']
  | h => ['h']
  | bare => []

/-- What the number is multiplied by. -/
def factor : TimeUnit → ℕ
  | m => 60
  | h => 3600
  | _ => 1

/-- `n` of the unit. -/
def duration : TimeUnit → ℕ → Duration
  | ms, n => .fromMillis n
  | u, n => .fromSecs (u.factor * n)

theorem duration_s (n : ℕ) : s.duration n = .fromSecs n :=
  congrArg Duration.fromSecs (Nat.one_mul n)

/-- What the branch of the unit makes of the text before its suffix. -/
def read : TimeUnit → Text → Option Duration
  | ms, w => (parseU64 w).map .fromMillis
  | u, w => scaled w u.factor

end TimeUnit

/-- A number and the suffix of the unit. -/
def Spells (s : Text) (n : ℕ) (u : TimeUnit) : Prop := ∃ w, s = w ++ u.suffix ∧ IsNumeral w n

theorem scaled_eq_some_iff {w : Text} {k : ℕ} {d : Duration} (hk : 0 < k) :
    scaled w k = some d ↔ ∃ n, IsNumeral w n ∧ k * n < 2 ^ 64 ∧ d = .fromSecs (k * n) := by
  rw [scaled, Option.bind_eq_some_iff]
  constructor
  · rintro ⟨n, hn, hd⟩
    split_ifs at hd with hfits
    rw [Nat.mul_comm] at hfits hd
    exact ⟨n, (parseU64_eq_some_iff.mp hn).1, hfits, (Option.some.inj hd).symm⟩
  · rintro ⟨n, hn, hfits, rfl⟩
    have hle : n ≤ k * n := Nat.le_mul_of_pos_left n hk
    refine ⟨n, parseU64_eq_some_iff.mpr ⟨hn, hle.trans_lt hfits⟩, ?_⟩
    rw [Nat.mul_comm n k, if_pos hfits]

theorem TimeUnit.read_eq_some_iff {u : TimeUnit} {w : Text} {d : Duration} :
    u.read w = some d ↔ ∃ n, IsNumeral w n ∧ u.factor * n < 2 ^ 64 ∧ d = u.duration n := by
  cases u with
  | ms =>
    rw [TimeUnit.read, Option.map_eq_some_iff]
    simp only [parseU64_eq_some_iff, TimeUnit.factor, Nat.one_mul, TimeUnit.duration, and_assoc,
      eq_comm (a := d)]
  | s => exact scaled_eq_some_iff Nat.one_pos
  | m => exact scaled_eq_some_iff (by decide)
  | h => exact scaled_eq_some_iff (by decide)
  | bare => exact scaled_eq_some_iff Nat.one_pos

/-! ## The choice of the unit -/

namespace TimeUnit

/-- The units in the order in which their suffixes are tried. -/
def all : List TimeUnit := [ms, s, m, h, bare]

/-- What the first unit whose suffix is found reads. -/
def readFirst (t : Text) : List TimeUnit → Option Duration
  | [] => none
  | u :: us =>
    match stripSuffix u.suffix t with
    | some w => u.read w
    | none => readFirst t us

end TimeUnit

theorem parseDuration_eq_readFirst (v : Text) :
    parseDuration v = TimeUnit.readFirst (trim v) TimeUnit.all := by
  -- the empty suffix of a bare number is always found
  have hbare : stripSuffix TimeUnit.bare.suffix (trim v) = some (trim v) :=
    stripSuffix_eq_some_iff.mpr (List.append_nil _).symm
  simp only [TimeUnit.all, TimeUnit.readFirst, hbare]
  rfl

/-- A numeral ends in a digit, so a suffix without digits is found after one only if it is found in
what follows it. -/
theorem append_ne_append {w r t t' : Text} {n : ℕ} (hw : IsNumeral w n)
    (ht : t.any Char.isDigit = false) (hsuffix : ¬t <:+ t') : w ++ t' ≠ r ++ t := by
  intro heq
  have hboth : t <:+ w ++ t' := heq ▸ List.suffix_append r t
  obtain h | ⟨p, rfl⟩ := List.suffix_or_suffix_of_suffix hboth (List.suffix_append w t')
  · exact hsuffix h
  · -- the end of `w` is then the end of `p`, which has no digit
    rw [← List.append_assoc, List.append_cancel_right_eq] at heq
    obtain ⟨x, c, rfl, hc⟩ := hw.eq_concat
    obtain rfl | ⟨p, c', rfl⟩ := List.eq_nil_or_concat' p
    · exact hsuffix List.suffix_rfl
    · rw [← List.append_assoc] at heq
      obtain rfl := List.singleton_inj.mp (List.append_inj_right' heq rfl)
      exact List.any_eq_false.mp ht c (by simp) hc

theorem any_isDigit_suffix (u : TimeUnit) : u.suffix.any Char.isDigit = false := by
  cases u <;> decide

/-- No suffix is the end of one that is tried after it. -/
theorem pairwise_all : TimeUnit.all.Pairwise fun u u' ↦ ¬u.suffix <:+ u'.suffix := by decide

/-- The first suffix found is the only one that follows a numeral. -/
theorem readFirst_eq_some_iff {us : List TimeUnit} {t : Text} {d : Duration}
    (hus : us.Pairwise fun u u' ↦ ¬u.suffix <:+ u'.suffix) :
    TimeUnit.readFirst t us = some d ↔
      ∃ u ∈ us, ∃ w, t = w ++ u.suffix ∧ u.read w = some d := by
  induction us with
  | nil => simp [TimeUnit.readFirst]
  | cons u us ih =>
    obtain ⟨hclear, hus⟩ := List.pairwise_cons.mp hus
    rw [TimeUnit.readFirst]
    cases hstrip : stripSuffix u.suffix t with
    | none =>
      rw [ih hus]
      constructor
      · rintro ⟨u', hmem, hread⟩
        exact ⟨u', List.mem_cons_of_mem u hmem, hread⟩
      · rintro ⟨u', hmem, w, ht, hread⟩
        obtain rfl | hmem := List.mem_cons.mp hmem
        · exact absurd ht (ne_append_of_stripSuffix_eq_none hstrip w)
        · exact ⟨u', hmem, w, ht, hread⟩
    | some w =>
      have ht := stripSuffix_eq_some_iff.mp hstrip
      constructor
      · intro hread
        exact ⟨u, List.mem_cons_self, w, ht, hread⟩
      · rintro ⟨u', hmem, w', ht', hread⟩
        obtain rfl | hmem := List.mem_cons.mp hmem
        · rwa [List.append_cancel_right (ht.symm.trans ht')]
        · -- what was read before a later suffix is a numeral
          obtain ⟨n, hw', -⟩ := TimeUnit.read_eq_some_iff.mp hread
          exact absurd (ht'.symm.trans ht)
            (append_ne_append hw' (any_isDigit_suffix u) (hclear u' hmem))

/-! ## The grammar -/

theorem asSecs_duration_lt {u : TimeUnit} {n : ℕ} (h : u.factor * n < 2 ^ 64) :
    (u.duration n).asSecs < 2 ^ 64 := by
  cases u <;> simp only [TimeUnit.duration, TimeUnit.factor, Duration.asSecs, Duration.fromSecs,
    Duration.fromMillis] at * <;> omega

theorem parseDuration_iff_spells {v : Text} {d : Duration} :
    parseDuration v = some d ↔
      ∃ n u, Spells (trim v) n u ∧ u.factor * n < 2 ^ 64 ∧ d = u.duration n := by
  rw [parseDuration_eq_readFirst, readFirst_eq_some_iff pairwise_all]
  constructor
  · rintro ⟨u, -, w, ht, hread⟩
    obtain ⟨n, hw, hfits, hd⟩ := TimeUnit.read_eq_some_iff.mp hread
    exact ⟨n, u, ⟨w, ht, hw⟩, hfits, hd⟩
  · rintro ⟨n, u, ⟨w, ht, hw⟩, hfits, hd⟩
    refine ⟨u, ?_, w, ht, TimeUnit.read_eq_some_iff.mpr ⟨n, hw, hfits, hd⟩⟩
    cases u <;> decide

/-- A duration is understood exactly when it is a number and a unit that a `u64` has room for, and
the seconds of what it denotes have room in a `u64` as well. -/
theorem parseDuration_eq_some_iff (v : Text) :
    (∀ d, parseDuration v = some d ↔
      ∃ n u, Spells (trim v) n u ∧ u.factor * n < 2 ^ 64 ∧ d = u.duration n) ∧
    ∀ d ∈ parseDuration v, d.asSecs < 2 ^ 64 := by
  refine ⟨fun _ ↦ parseDuration_iff_spells, fun d hd ↦ ?_⟩
  obtain ⟨n, u, -, hfits, rfl⟩ := parseDuration_iff_spells.mp hd
  exact asSecs_duration_lt hfits

theorem Spells.unique {s : Text} {n n' : ℕ} {u u' : TimeUnit} (h : Spells s n u)
    (h' : Spells s n' u') : n = n' ∧ u = u' := by
  obtain ⟨w, rfl, hw⟩ := h
  obtain ⟨w', heq, hw'⟩ := h'
  by_cases hu : u = u'
  · subst hu
    obtain rfl := List.append_cancel_right heq
    exact ⟨(isNumeral_iff.mp hw).2.symm.trans (isNumeral_iff.mp hw').2, rfl⟩
  · -- of two suffixes one is not the end of the other
    have hends : ∀ a b : TimeUnit, a ≠ b → ¬a.suffix <:+ b.suffix ∨ ¬b.suffix <:+ a.suffix := by
      intro a b
      cases a <;> cases b <;> decide
    rcases hends u u' hu with hsuffix | hsuffix
    · exact absurd heq.symm (append_ne_append hw' (any_isDigit_suffix u) hsuffix)
    · exact absurd heq (append_ne_append hw (any_isDigit_suffix u') hsuffix)

end Text

end SurrealPg
