import SurrealPg.Schema.SqlText
import SurrealPg.Config.Documented

/-!
# No injection

What is interpolated into an SQL text comes from the URL and from the environment, by way of a
validator, a parser and a formatter. Each way is followed here to its end: a name, a keyword, a
memory size, a duration, an integer or a decimal fraction is a word, and a word leaves no mark where
a word is expected. So the statements, quotes and comments of every text are those of the source.
-/

namespace SurrealPg

open Postgres Text

/-! ## Words -/

/-- The characters a fragment may have. -/
def isFragmentChar (c : Char) : Bool := isWordChar c || c == '-'

theorem isWord_of_forall {w : Text} (hne : w ≠ []) (h : ∀ c ∈ w, isWordChar c = true) :
    Scan.IsWord w :=
  ⟨w, Or.inl rfl, hne, h⟩

/-- The computed form, for the texts the code writes out. -/
theorem isWord_of_all {w : Text} (hne : w ≠ []) (h : w.all isWordChar = true) : Scan.IsWord w :=
  isWord_of_forall hne (List.all_eq_true.mp h)

theorem isWord_append {v w : Text} (hv : Scan.IsWord v) (hw : ∀ c ∈ w, isWordChar c = true) :
    Scan.IsWord (v ++ w) := by
  obtain ⟨u, hu, hne, hchars⟩ := hv
  refine ⟨u ++ w, hu.imp (congrArg (· ++ w)) (congrArg (· ++ w)), ?_, ?_⟩
  · exact List.append_ne_nil_of_left_ne_nil hne w
  · intro c hc
    rcases List.mem_append.mp hc with hc | hc
    · exact hchars c hc
    · exact hw c hc

theorem fragment_of_isWord {w : Text} (h : Scan.IsWord w) :
    w ≠ [] ∧ ∀ c ∈ w, isFragmentChar c = true := by
  have hword : ∀ c, isWordChar c = true → isFragmentChar c = true := fun c hc ↦ by
    rw [isFragmentChar, hc]
    rfl
  obtain ⟨v, rfl | rfl, hne, hv⟩ := h
  · exact ⟨hne, fun c hc ↦ hword c (hv c hc)⟩
  · refine ⟨List.cons_ne_nil _ _, fun c hc ↦ ?_⟩
    rcases List.mem_cons.mp hc with rfl | hc
    · rfl
    · exact hword c (hv c hc)

theorem isWordChar_of_isDigit {c : Char} (h : c.isDigit = true) : isWordChar c = true := by
  simp [isWordChar, Char.isAlphanum, h]

/-! ## Numbers -/

theorem isWordChar_of_mem_natText {n : ℕ} {c : Char} (h : c ∈ natText n) : isWordChar c = true :=
  isWordChar_of_isDigit (TuneConfig.isDigit_of_mem_natText h)

theorem isWord_natText (n : ℕ) : Scan.IsWord (natText n) :=
  isWord_of_forall (TuneConfig.natText_ne_nil n) fun _ hc ↦ isWordChar_of_mem_natText hc

theorem isWord_intText (n : ℤ) : Scan.IsWord (intText n) := by
  cases n with
  | ofNat m => exact isWord_natText m
  | negSucc m =>
    have hneg : intText (Int.negSucc m) = '-' :: natText (m + 1) := by
      simp [intText, natText, toString, Int.repr]
    rw [hneg]
    exact ⟨_, Or.inr rfl, TuneConfig.natText_ne_nil _, fun _ hc ↦ isWordChar_of_mem_natText hc⟩

/-- The digits of a fraction, with or without a point. -/
theorem positional_word {ds : Text} (h : ∀ c ∈ ds, isWordChar c = true) (e : ℤ) :
    F64Text.positional ds e ≠ [] ∧ ∀ c ∈ F64Text.positional ds e, isWordChar c = true := by
  have hzeros : ∀ n, ∀ c ∈ List.replicate n '0', isWordChar c = true := by
    intro n c hc
    rw [(List.mem_replicate.mp hc).2]
    rfl
  rw [F64Text.positional]
  split_ifs with he hlen
  · refine ⟨nofun, fun c hc ↦ ?_⟩
    simp only [List.cons_append, List.mem_cons, List.mem_append] at hc
    rcases hc with rfl | rfl | hc | hc
    · rfl
    · rfl
    · exact hzeros _ c hc
    · exact h c hc
  · constructor
    · -- there is a digit before the point
      apply List.ne_nil_of_length_pos
      rw [List.length_append, List.length_replicate]
      omega
    · intro c hc
      rcases List.mem_append.mp hc with hc | hc
      · exact h c hc
      · exact hzeros _ c hc
  · constructor
    · exact List.append_ne_nil_of_right_ne_nil _ (List.cons_ne_nil _ _)
    · intro c hc
      rcases List.mem_append.mp hc with hc | hc
      · exact h c (List.mem_of_mem_take hc)
      · rcases List.mem_cons.mp hc with rfl | hc
        · rfl
        · exact h c (List.mem_of_mem_drop hc)

theorem isWordChar_digit (d : Fin 10) : isWordChar (F64Text.digit d) = true := by
  revert d
  decide

/-- A finite number is written without an exponent. -/
theorem isWord_display (f : F64Text) {x : F64} (h : x.isFinite = true) :
    Scan.IsWord (f.display x) := by
  have hpositive : ∀ q, f.positive q ≠ [] ∧ ∀ c ∈ f.positive q, isWordChar c = true := by
    intro q
    apply positional_word
    intro c hc
    obtain ⟨d, -, rfl⟩ := List.mem_map.mp hc
    exact isWordChar_digit d
  cases x with
  | nan => exact absurd h Bool.false_ne_true
  | infinite negative => exact absurd h Bool.false_ne_true
  | negativeZero => exact ⟨['0'], Or.inr rfl, nofun, List.all_eq_true.mp rfl⟩
  | finite q =>
    rw [F64Text.display]
    split_ifs
    · exact isWord_of_all (List.cons_ne_nil _ _) rfl
    · exact isWord_of_forall (hpositive q).1 (hpositive q).2
    · exact ⟨_, Or.inr rfl, (hpositive (-q)).1, (hpositive (-q)).2⟩

/-! ## Names and keywords -/

theorem isWordChar_of_isIdentifierChar {c : Char} (h : isIdentifierChar c = true) :
    isWordChar c = true := by
  rw [isIdentifierChar] at h
  rw [isWordChar, h]
  rfl

theorem ValidIdentifier.isWord {table : String} (h : ValidIdentifier table) :
    Scan.IsWord table.toList := by
  obtain ⟨⟨first, rest, heq, -⟩, hchars, -⟩ := h.chars
  refine isWord_of_forall ?_ fun c hc ↦ isWordChar_of_isIdentifierChar (hchars c hc)
  rw [heq]
  exact List.cons_ne_nil _ _

theorem isWord_partitionName {table : String} (h : ValidIdentifier table) (i : ℕ) :
    Scan.IsWord (TuneConfig.partitionName table i).toList := by
  have htoList : (TuneConfig.partitionName table i).toList =
      table.toList ++ (("_p" : String).toList ++ natText i) := by
    rw [TuneConfig.partitionName, String.toList_append, String.toList_append, List.append_assoc]
    rfl
  have hsuffix : ("_p" : String).toList.all isWordChar = true := by decide +kernel
  rw [htoList]
  refine isWord_append h.isWord fun c hc ↦ ?_
  rcases List.mem_append.mp hc with hc | hc
  · exact List.all_eq_true.mp hsuffix c hc
  · exact isWordChar_of_mem_natText hc

theorem isWord_of_validateToastStorage {v : String} (h : validateToastStorage v = true) :
    Scan.IsWord v.toList := by
  rw [validateToastStorage, List.contains_iff_mem] at h
  simp only [List.mem_cons, List.not_mem_nil, or_false] at h
  rcases h with rfl | rfl | rfl | rfl
  all_goals exact isWord_of_all (by decide +kernel) (by decide +kernel)

/-! ## Memory sizes -/

theorem isWord_of_isMemorySize {v : Text} (h : IsMemorySize v) : Scan.IsWord v := by
  obtain ⟨digits, unit, hunit, rfl, hdigits⟩ := h
  have hwordUnit : ∀ unit ∈ ["", "kB", "MB", "GB", "TB"], unit.toList.all isWordChar = true := by
    decide +kernel
  rw [isDecimal, Bool.and_eq_true, List.all_eq_true] at hdigits
  refine isWord_append (isWord_of_forall ?_ fun c hc ↦ isWordChar_of_isDigit (hdigits.2 c hc))
    (List.all_eq_true.mp (hwordUnit unit hunit))
  rintro rfl
  exact absurd hdigits.1 Bool.false_ne_true

/-! ## The fragments of each text -/

theorem worded_nil : Worded [] := fun _ h ↦ absurd h List.not_mem_nil

theorem worded_lit {s : String} {ps : List Piece} (h : Worded ps) : Worded (.lit s :: ps) := by
  intro x hx
  rcases List.mem_cons.mp hx with heq | hx
  · exact nomatch heq
  · exact h x hx

theorem worded_frag {w : Text} {ps : List Piece} (hw : Scan.IsWord w) (h : Worded ps) :
    Worded (.frag w :: ps) := by
  intro x hx
  rcases List.mem_cons.mp hx with heq | hx
  · rw [Piece.frag.inj heq]
    exact hw
  · exact h x hx

theorem worded_append {ps qs : List Piece} (hps : Worded ps) (hqs : Worded qs) :
    Worded (ps ++ qs) := by
  intro x hx
  rcases List.mem_append.mp hx with hx | hx
  · exact hps x hx
  · exact hqs x hx

theorem worded_flatMap {α : Type} {l : List α} {g : α → List Piece}
    (h : ∀ a ∈ l, Worded (g a)) : Worded (l.flatMap g) := by
  intro x hx
  obtain ⟨a, ha, hx⟩ := List.mem_flatMap.mp hx
  exact h a ha x hx

theorem worded_sql {table : String} (h : ValidIdentifier table) :
    ∀ ps ∈ (Sql.new table).texts, Worded ps := by
  have hone : ∀ a b : String, Worded [.lit a, .frag table.toList, .lit b] :=
    fun a b ↦ worded_lit (worded_frag h.isWord (worded_lit worded_nil))
  intro ps hps
  simp only [Sql.texts, Sql.new, List.mem_cons, List.not_mem_nil, or_false] at hps
  rcases hps with rfl | rfl | rfl | rfl | rfl | rfl | rfl | rfl | rfl | rfl | rfl | rfl | rfl |
    rfl | rfl | rfl | rfl
  all_goals first | exact hone _ _ | exact worded_lit worded_nil

theorem isWord_fmtDur (f : F64Text) (d : Duration) : Scan.IsWord ((fmtDur d).write f) := by
  rw [fmtDur]
  split_ifs
  · exact isWord_append (isWord_natText _) (List.all_eq_true.mp rfl)
  · exact isWord_append (isWord_natText _) (List.all_eq_true.mp rfl)

theorem isWord_fmtKeepaliveSecs (f : F64Text) (d : Duration) :
    Scan.IsWord ((fmtKeepaliveSecs d).write f) := by
  rw [fmtKeepaliveSecs]
  split_ifs <;> exact isWord_intText _

theorem worded_intersperse {sep : List Piece} (hsep : Worded sep) {l : List (List Piece)}
    (h : ∀ ps ∈ l, Worded ps) : Worded (l.intersperse sep).flatten := by
  intro x hx
  obtain ⟨ps, hps, hx⟩ := List.mem_flatten.mp hx
  have hmem : ∀ l : List (List Piece), ps ∈ l.intersperse sep → ps ∈ l ∨ ps = sep := by
    intro l
    induction l with
    | nil => exact Or.inl
    | cons a l ih =>
      cases l with
      | nil => exact Or.inl
      | cons b l =>
        intro hps
        rw [List.intersperse_cons_cons] at hps
        rcases List.mem_cons.mp hps with rfl | hps
        · exact Or.inl List.mem_cons_self
        · rcases List.mem_cons.mp hps with rfl | hps
          · exact Or.inr rfl
          · exact (ih hps).imp_left (List.mem_cons_of_mem _)
  rcases hmem l hps with hps | heq
  · exact h ps hps x hx
  · rw [heq] at hx
    exact hsep x hx

section

variable (f : F64Text) (env : Env)

theorem isWord_sessionSettings {p : String × Guc}
    (hp : p ∈ (TuneConfig.fromEnv f env).session.sessionSettings) : Scan.IsWord (p.2.write f) := by
  have hsize : ∀ s ∈ (TuneConfig.fromEnv f env).memorySizes, Scan.IsWord ((Guc.text s).write f) :=
    fun s hs ↦ isWord_of_isMemorySize (TuneConfig.memorySizes_fromEnv f env s hs)
  simp only [PgTuneConfig.sessionSettings, List.mem_cons, List.not_mem_nil, or_false] at hp
  rcases hp with rfl | rfl | rfl | rfl | rfl | rfl | rfl | rfl
  · exact isWord_fmtDur f _
  · exact isWord_fmtDur f _
  · exact isWord_fmtDur f _
  · exact isWord_intText _
  · exact hsize _ (by simp [TuneConfig.memorySizes])
  · exact hsize _ (by simp [TuneConfig.memorySizes])
  · exact isWord_display f (x := .finite _) rfl
  · exact hsize _ (by simp [TuneConfig.memorySizes])

theorem worded_session :
    Worded ((RawSql.session (TuneConfig.fromEnv f env).session.sessionSettings).pieces f) := by
  apply worded_intersperse (worded_lit worded_nil)
  intro ps hps
  obtain ⟨p, hp, rfl⟩ := List.mem_map.mp hps
  exact worded_lit (worded_frag (isWord_sessionSettings f env hp) (worded_lit worded_nil))

theorem worded_keepalive (t : PgTuneConfig) : Worded (t.keepaliveSql.pieces f) := by
  apply worded_intersperse (worded_lit worded_nil)
  intro ps hps
  simp only [List.map_cons, List.map_nil, List.mem_cons, List.not_mem_nil, or_false] at hps
  rcases hps with rfl | rfl | rfl
  · exact worded_lit (worded_frag (isWord_fmtKeepaliveSecs f _) worded_nil)
  · exact worded_lit (worded_frag (isWord_fmtKeepaliveSecs f _) worded_nil)
  · exact worded_lit (worded_frag (isWord_intText _) worded_nil)

end

/-! ## The texts of the table -/

section

variable {t : TuneConfig} {table : String} (f : F64Text)

theorem worded_optionPieces {options : List (String × ParamValue)}
    (h : ∀ p ∈ options, Scan.IsWord (p.2.text f)) : Worded (optionPieces f options) := by
  induction options with
  | nil => exact worded_nil
  | cons p ps ih =>
    have hp : Scan.IsWord (p.2.text f) := h p List.mem_cons_self
    have hrest : Worded (optionPieces f ps) := ih fun q hq ↦ h q (List.mem_cons_of_mem _ hq)
    cases ps with
    | nil => exact worded_lit (worded_frag hp (worded_lit worded_nil))
    | cons q qs => exact worded_lit (worded_frag hp (worded_lit hrest))

theorem worded_createTableText (h : ValidIdentifier table) :
    Worded (t.createTableText table f) := by
  have hpieces : ∀ d ∈ t.createStatements table, Worded (ddlPieces f d) := by
    intro d hd
    rw [TuneConfig.createStatements] at hd
    split_ifs at hd
    · rw [List.mem_singleton.mp hd]
      exact worded_lit (worded_frag h.isWord (worded_lit (worded_lit worded_nil)))
    · rcases List.mem_cons.mp hd with rfl | hd
      · exact worded_lit (worded_frag h.isWord (worded_lit (worded_lit worded_nil)))
      · obtain ⟨i, -, rfl⟩ := List.mem_map.mp hd
        exact worded_lit (worded_frag (isWord_partitionName h i) (worded_lit (worded_frag h.isWord
          (worded_lit (worded_frag (isWord_natText _) (worded_lit (worded_frag (isWord_natText _)
            (worded_lit worded_nil))))))))
  rw [TuneConfig.createTableText]
  split_ifs
  · exact worded_flatMap hpieces
  · exact worded_flatMap fun d hd ↦ worded_append (hpieces d hd) (worded_lit worded_nil)

theorem isWord_options (h : t.tableAsserts = true) {p : String × ParamValue}
    (hp : p ∈ t.storageOptions ++ t.autovacuumOptions) : Scan.IsWord (p.2.text f) := by
  simp only [TuneConfig.tableAsserts, Bool.and_eq_true] at h
  have hvacuum := h.1.1.1.1.1.2.1
  have hanalyze := h.1.1.1.1.2.1
  simp only [TuneConfig.storageOptions, TuneConfig.autovacuumOptions, List.cons_append,
    List.nil_append, List.mem_cons, List.not_mem_nil, or_false] at hp
  rcases hp with rfl | rfl | rfl | rfl | rfl | rfl | rfl
  · exact isWord_intText _
  · exact isWord_intText _
  · exact isWord_display f hvacuum
  · exact isWord_intText _
  · exact isWord_display f hanalyze
  · exact isWord_intText _
  · exact isWord_intText _

theorem isWord_toastStorage (h : t.tableAsserts = true) : Scan.IsWord t.toastStorage.toList := by
  simp only [TuneConfig.tableAsserts, Bool.and_eq_true] at h
  exact isWord_of_validateToastStorage h.1.1.1.1.1.1.1

theorem worded_tuneRelation (h : t.tableAsserts = true) {name : String}
    (hname : Scan.IsWord name.toList) {d : Ddl ParamValue} (hd : d ∈ t.tuneRelation name) :
    Worded (ddlPieces f d) := by
  simp only [TuneConfig.tuneRelation, List.mem_cons, List.not_mem_nil, or_false] at hd
  have hoptions : ∀ options, (∀ p ∈ options, p ∈ t.storageOptions ++ t.autovacuumOptions) →
      Worded (ddlPieces f (.setOptions name options)) := by
    intro options hsub
    have hassign := worded_optionPieces f fun p hp ↦ isWord_options f h (hsub p hp)
    exact worded_append (worded_append (worded_lit (worded_frag hname (worded_lit worded_nil)))
      hassign) (worded_lit worded_nil)
  rcases hd with rfl | rfl | rfl
  · exact hoptions _ fun p hp ↦ List.mem_append_left _ hp
  · exact worded_lit (worded_frag hname (worded_lit (worded_frag (isWord_toastStorage h)
      (worded_lit worded_nil))))
  · exact hoptions _ fun p hp ↦ List.mem_append_right _ hp

/-- The pieces of a line of the tuning text. -/
def SqlPart.pieces (f : F64Text) : SqlPart → List Piece
  | .comment ps => .lit "\n-- " :: ps
  | .statement d => .lit "\n" :: ddlPieces f d

theorem tuneTableText_eq :
    t.tuneTableText table f = (t.tuneParts table).flatMap (SqlPart.pieces f) := by
  rw [TuneConfig.tuneTableText]
  refine List.flatMap_congr fun part _ ↦ ?_
  cases part <;> rfl

theorem worded_tuneTableText (h : t.tableAsserts = true) (hname : ValidIdentifier table) :
    Worded (t.tuneTableText table f) := by
  have hstatement : ∀ {name : String} {d : Ddl ParamValue}, Scan.IsWord name.toList →
      d ∈ t.tuneRelation name → Worded (SqlPart.pieces f (.statement d)) :=
    fun hn hd ↦ worded_lit (worded_tuneRelation f h hn hd)
  have hmem : ∀ name, ∀ d ∈ [Ddl.setOptions name t.storageOptions,
      .setStorage name t.toastStorage, .setOptions name t.autovacuumOptions],
      d ∈ t.tuneRelation name := fun _ _ hd ↦ hd
  rw [tuneTableText_eq]
  apply worded_flatMap
  intro part hpart
  rw [TuneConfig.tuneParts] at hpart
  split_ifs at hpart
  · simp only [TuneConfig.storageParts, List.cons_append, List.nil_append, List.mem_cons,
      List.not_mem_nil, or_false] at hpart
    rcases hpart with rfl | rfl | rfl | rfl | rfl
    · exact worded_lit (worded_lit worded_nil)
    · exact hstatement hname.isWord (hmem _ _ (by simp))
    · exact hstatement hname.isWord (hmem _ _ (by simp))
    · exact worded_lit (worded_lit worded_nil)
    · exact hstatement hname.isWord (hmem _ _ (by simp))
  · rcases List.mem_append.mp hpart with hpart | hpart
    · simp only [List.mem_cons, List.not_mem_nil, or_false] at hpart
      rcases hpart with rfl | rfl | rfl | rfl
      · exact worded_lit (worded_lit worded_nil)
      · exact worded_lit (worded_lit worded_nil)
      · exact worded_lit (worded_lit worded_nil)
      · exact hstatement hname.isWord (hmem _ _ (by simp))
    · obtain ⟨i, -, hpart⟩ := List.mem_flatMap.mp hpart
      have hpartition := isWord_partitionName hname i
      simp only [TuneConfig.storageParts, List.cons_append, List.nil_append, List.mem_cons,
        List.not_mem_nil, or_false] at hpart
      rcases hpart with rfl | rfl | rfl | rfl | rfl
      · exact worded_lit (worded_lit (worded_frag hpartition (worded_lit worded_nil)))
      · exact hstatement hpartition (hmem _ _ (by simp))
      · exact hstatement hpartition (hmem _ _ (by simp))
      · exact worded_lit (worded_lit (worded_frag hpartition (worded_lit worded_nil)))
      · exact hstatement hpartition (hmem _ _ (by simp))

end

/-! ## The shape of each text -/

/-- A text that ends where it began, between two statements. -/
def Closed (hs : List (Option String)) : Prop := (runShape .start hs).map Prod.snd = some .start

instance (hs : List (Option String)) : Decidable (Closed hs) :=
  inferInstanceAs (Decidable (_ = _))

theorem runShape_append {s : Scan} {hs : List (Option String)} {r : List Mark × Scan}
    (h : runShape s hs = some r) (hs' : List (Option String)) :
    runShape s (hs ++ hs') = (runShape r.2 hs').map fun r' ↦ (r.1 ++ r'.1, r'.2) := by
  induction hs generalizing s r with
  | nil =>
    obtain rfl := Option.some.inj h
    rw [List.nil_append]
    exact Option.map_id'.symm
  | cons hole hs ih =>
    cases hole with
    | some t =>
      obtain ⟨r', hr', rfl⟩ := Option.map_eq_some_iff.mp h
      rw [List.cons_append, runShape, ih hr', Option.map_map]
      refine congrArg (fun g ↦ Option.map g _) (funext fun q ↦ ?_)
      rw [Function.comp_apply, List.append_assoc]
    | none =>
      by_cases hcalm : s.Calm = true
      · rw [List.cons_append, runShape, if_pos hcalm]
        exact ih ((if_pos hcalm).symm.trans h)
      · have hnone : runShape s (none :: hs) = none := if_neg hcalm
        rw [hnone] at h
        exact nomatch h

theorem Closed.append {hs hs' : List (Option String)} (h : Closed hs) (h' : Closed hs') :
    Closed (hs ++ hs') := by
  obtain ⟨r, hr, hend⟩ := Option.map_eq_some_iff.mp h
  rw [Closed, runShape_append hr, hend, Option.map_map]
  exact h'

theorem closed_flatMap {α : Type} {l : List α} {g : α → List (Option String)}
    (h : ∀ a ∈ l, Closed (g a)) : Closed (l.flatMap g) := by
  induction l with
  | nil => rfl
  | cons a l ih =>
    rw [List.flatMap_cons]
    exact (h a List.mem_cons_self).append (ih fun b hb ↦ h b (List.mem_cons_of_mem _ hb))

theorem Closed.isSome {hs : List (Option String)} (h : Closed hs) :
    (runShape .start hs).isSome = true := by
  obtain ⟨r, hr, -⟩ := Option.map_eq_some_iff.mp h
  rw [hr]
  rfl

theorem map_marks_congr {l l' : List (List Piece)} (hl : ∀ ps ∈ l, Worded ps)
    (hl' : ∀ ps ∈ l', Worded ps) (hshape : l.map shape = l'.map shape)
    (hcalm : ∀ hs ∈ l.map shape, (runShape .start hs).isSome = true) :
    l.map marks = l'.map marks := by
  induction l generalizing l' with
  | nil =>
    rw [List.map_eq_nil_iff.mp hshape.symm]
  | cons ps l ih =>
    obtain ⟨qs, l', rfl, hqs, hrest⟩ := List.map_eq_cons_iff.mp hshape.symm
    have hhead : marks ps = marks qs :=
      marks_congr (hl ps List.mem_cons_self) (hl' qs List.mem_cons_self) hqs.symm
        (hcalm _ List.mem_cons_self)
    have htail := ih (fun rs h ↦ hl rs (List.mem_cons_of_mem _ h))
      (fun rs h ↦ hl' rs (List.mem_cons_of_mem _ h)) hrest.symm
      (fun rs h ↦ hcalm rs (List.mem_cons_of_mem _ h))
    rw [List.map_cons, List.map_cons, hhead, htail]

/-- The statements on keys have one shape each. -/
theorem calm_sql (table : String) :
    ∀ hs ∈ (Sql.new table).texts.map shape, (runShape .start hs).isSome = true := by
  have hshape : (Sql.new table).texts.map shape = (Sql.new "").texts.map shape := rfl
  rw [hshape]
  decide +kernel

theorem quote_fmtDur (d : Duration) : (fmtDur d).quote = "'" := by
  rw [fmtDur]
  split_ifs <;> rfl

/-- The shape of a `SET` in the session SQL, by its name and its quotes. -/
def sessionShape (p : String × String) : List (Option String) :=
  [some ("SET " ++ p.1 ++ " = " ++ p.2), none, some (p.2 ++ ";")]

theorem shape_intersperse (sep : List Piece) (l : List (List Piece)) :
    shape (l.intersperse sep).flatten = ((l.map shape).intersperse (shape sep)).flatten := by
  induction l with
  | nil => rfl
  | cons a l ih =>
    cases l with
    | nil => simp [shape]
    | cons b l =>
      rw [List.intersperse_cons_cons, List.flatten_cons, List.flatten_cons, shape_append,
        shape_append, ih]
      rfl

theorem shape_session (f : F64Text) (t : PgTuneConfig) :
    shape ((RawSql.session t.sessionSettings).pieces f) =
      (([("statement_timeout", "'"), ("idle_in_transaction_session_timeout", "'"),
        ("lock_timeout", "'"), ("default_statistics_target", ""), ("work_mem", "'"),
        ("maintenance_work_mem", "'"), ("random_page_cost", ""),
        ("effective_cache_size", "'")].map sessionShape).intersperse [some "\n"]).flatten := by
  have hquotes : t.sessionSettings.map (fun p ↦ (p.1, p.2.quote)) =
      [("statement_timeout", "'"), ("idle_in_transaction_session_timeout", "'"),
        ("lock_timeout", "'"), ("default_statistics_target", ""), ("work_mem", "'"),
        ("maintenance_work_mem", "'"), ("random_page_cost", ""),
        ("effective_cache_size", "'")] := by
    simp only [PgTuneConfig.sessionSettings, List.map_cons, List.map_nil, quote_fmtDur]
    rfl
  rw [RawSql.pieces, shape_intersperse, List.map_map, ← hquotes, List.map_map]
  rfl

theorem calm_session (f : F64Text) (t : PgTuneConfig) :
    (runShape .start (shape ((RawSql.session t.sessionSettings).pieces f))).isSome = true := by
  rw [shape_session]
  decide +kernel

theorem calm_vacuum (table : String) :
    (runShape .start (shape (vacuumSql table))).isSome = true := by
  have h : (runShape .start [some "VACUUM ANALYZE ", none]).isSome = true := by decide +kernel
  exact h

theorem calm_keepalive (f : F64Text) (t : PgTuneConfig) :
    (runShape .start (shape (t.keepaliveSql.pieces f))).isSome = true := by
  have hshape : shape (t.keepaliveSql.pieces f) =
      shape ((default : PgTuneConfig).keepaliveSql.pieces ⟨fun _ ↦ none, fun _ ↦ ([], 0)⟩) := rfl
  rw [hshape]
  decide +kernel

theorem marks_begin (f : F64Text) (l : PgIsolation) :
    marks ((RawSql.begin l.asSql).pieces f) = [.begin] := by
  have h : ∀ l : PgIsolation,
      marks [.lit ("BEGIN ISOLATION LEVEL " ++ l.asSql)] = [.begin] := by
    intro l
    cases l <;> decide +kernel
  exact h l

section

variable {t t' : TuneConfig} {table table' : String} {f f' : F64Text}

theorem shape_createTableText (hN : t.hashPartitions = t'.hashPartitions)
    (hu : t.useUnlogged = t'.useUnlogged) :
    shape (t.createTableText table f) = shape (t'.createTableText table' f') := by
  rw [TuneConfig.createTableText, TuneConfig.createTableText, TuneConfig.createStatements,
    TuneConfig.createStatements, hN, hu]
  split_ifs
  · rw [shape_flatMap, shape_flatMap]
    rfl
  · rw [shape_flatMap, shape_flatMap, List.flatMap_cons, List.flatMap_cons, List.flatMap_map,
      List.flatMap_map]
    rfl

theorem closed_createTable (unlogged partitioned : Bool) :
    Closed (shape (ddlPieces f (.createTable table unlogged partitioned))) := by
  have hshape : shape (ddlPieces f (.createTable table unlogged partitioned)) =
      shape (ddlPieces ⟨fun _ ↦ none, fun _ ↦ ([], 0)⟩ (.createTable "" unlogged partitioned)) :=
    rfl
  rw [hshape]
  clear hshape
  revert unlogged partitioned
  decide +kernel

theorem closed_createPartition (part : String) (modulus remainder : ℕ) :
    Closed (shape (ddlPieces f (.createPartition part table false modulus remainder))) := by
  have hshape : shape (ddlPieces f (.createPartition part table false modulus remainder)) =
      shape (ddlPieces ⟨fun _ ↦ none, fun _ ↦ ([], 0)⟩ (.createPartition "" "" false 0 0)) :=
    rfl
  rw [hshape]
  decide +kernel

theorem closed_line {ps : List Piece} (h : Closed (shape ps)) :
    Closed (shape (ps ++ [.lit "\n"])) := by
  rw [shape_append]
  exact h.append (by decide +kernel)

theorem closed_createTableText : Closed (shape (t.createTableText table f)) := by
  rw [TuneConfig.createTableText, TuneConfig.createStatements]
  split_ifs
  · rw [shape_flatMap]
    apply closed_flatMap
    intro d hd
    rw [List.mem_singleton.mp hd]
    exact closed_createTable _ _
  · rw [shape_flatMap]
    apply closed_flatMap
    intro d hd
    rcases List.mem_cons.mp hd with rfl | hd
    · exact closed_line (closed_createTable _ _)
    · obtain ⟨i, -, rfl⟩ := List.mem_map.mp hd
      exact closed_line (closed_createPartition _ _ _)

/-- The lines about one partition. -/
def partitionParts (t : TuneConfig) (part : String) : List SqlPart :=
  .comment [.lit "Partition ", .frag part.toList, .lit " storage tuning"] ::
    t.storageParts part ++
    [.comment [.lit "Partition ", .frag part.toList, .lit " autovacuum tuning"],
     .statement (.setOptions part t.autovacuumOptions)]

/-- The lines about the parent. -/
def parentParts (t : TuneConfig) (table : String) : List SqlPart :=
  [.comment [.lit "Parent table: SET STORAGE only (all SET (...) storage parameters are"],
   .comment [.lit "illegal on partitioned tables in PG 13; child partitions get the full"],
   .comment [.lit "storage + autovacuum tuning below)."],
   .statement (.setStorage table t.toastStorage)]

/-- The lines about the one table. -/
def plainParts (t : TuneConfig) (table : String) : List SqlPart :=
  .comment [.lit "Table storage tuning"] :: t.storageParts table ++
    [.comment [.lit "Autovacuum tuning"], .statement (.setOptions table t.autovacuumOptions)]

theorem shape_tuneTableText_of_le (h : t.hashPartitions ≤ 1) :
    shape (t.tuneTableText table f) = shape ((plainParts t table).flatMap (SqlPart.pieces f)) := by
  rw [tuneTableText_eq, TuneConfig.tuneParts, if_pos h]
  rfl

theorem shape_tuneTableText_of_lt (h : ¬t.hashPartitions ≤ 1) :
    shape (t.tuneTableText table f) =
      shape ((parentParts t table).flatMap (SqlPart.pieces f)) ++
        (List.range t.hashPartitions).flatMap fun i ↦
          shape ((partitionParts t (TuneConfig.partitionName table i)).flatMap
            (SqlPart.pieces f)) := by
  rw [tuneTableText_eq, TuneConfig.tuneParts, if_neg h, List.flatMap_append, List.flatMap_assoc,
    shape_append, shape_flatMap (List.range t.hashPartitions)]
  rfl

theorem shape_tuneTableText (hN : t.hashPartitions = t'.hashPartitions) :
    shape (t.tuneTableText table f) = shape (t'.tuneTableText table' f') := by
  by_cases h : t.hashPartitions ≤ 1
  · rw [shape_tuneTableText_of_le h, shape_tuneTableText_of_le (hN ▸ h)]
    rfl
  · rw [shape_tuneTableText_of_lt h, shape_tuneTableText_of_lt (hN ▸ h), hN]
    rfl

/-- The shapes of the three groups of lines do not depend on the values. -/
theorem closed_parts (name : String) :
    Closed (shape ((plainParts t name).flatMap (SqlPart.pieces f))) ∧
      Closed (shape ((parentParts t name).flatMap (SqlPart.pieces f))) ∧
        Closed (shape ((partitionParts t name).flatMap (SqlPart.pieces f))) := by
  have h : ∀ parts ∈ [plainParts default "", parentParts default "", partitionParts default ""],
      Closed (shape (parts.flatMap (SqlPart.pieces ⟨fun _ ↦ none, fun _ ↦ ([], 0)⟩))) := by
    decide +kernel
  simp only [List.forall_mem_cons] at h
  have hplain : shape ((plainParts t name).flatMap (SqlPart.pieces f)) =
      shape ((plainParts default "").flatMap
        (SqlPart.pieces ⟨fun _ ↦ none, fun _ ↦ ([], 0)⟩)) := rfl
  have hparent : shape ((parentParts t name).flatMap (SqlPart.pieces f)) =
      shape ((parentParts default "").flatMap
        (SqlPart.pieces ⟨fun _ ↦ none, fun _ ↦ ([], 0)⟩)) := rfl
  have hpartition : shape ((partitionParts t name).flatMap (SqlPart.pieces f)) =
      shape ((partitionParts default "").flatMap
        (SqlPart.pieces ⟨fun _ ↦ none, fun _ ↦ ([], 0)⟩)) := rfl
  rw [hplain, hparent, hpartition]
  exact ⟨h.1, h.2.1, h.2.2.1⟩

theorem closed_tuneTableText : Closed (shape (t.tuneTableText table f)) := by
  by_cases h : t.hashPartitions ≤ 1
  · rw [shape_tuneTableText_of_le h]
    exact (closed_parts table).1
  · rw [shape_tuneTableText_of_lt h]
    exact (closed_parts table).2.1.append (closed_flatMap fun i _ ↦ (closed_parts _).2.2)

end

/-! ## A start that sends something -/

section

variable {f : F64Text} {parse : Text → Except String Unit} {env : Env} {url : Text}
  {config : PgConfig} {tune : TuneConfig}

theorem session_of_accepted (h : accepted f parse env url = .ok (config, tune)) :
    tune.session = (TuneConfig.fromEnv f env).session := by
  rw [(accepted_eq_ok h).2]
  exact (TuneConfig.overridden_asserts (TuneConfig.fromEnv f env) config).1

/-- The settings are asked for, and are those of the environment. -/
theorem sessionSql_of_accepted (h : accepted f parse env url = .ok (config, tune)) :
    tune.session.sessionSql =
      some (.session (TuneConfig.fromEnv f env).session.sessionSettings) := by
  rw [← session_of_accepted h, PgTuneConfig.sessionSql, if_pos (asserts_of_accepted h).1]

theorem storeTexts_of_accepted (h : accepted f parse env url = .ok (config, tune)) :
    storeTexts config tune f = (Sql.new config.tableName).texts ++
      [(RawSql.begin config.isolationLevel.asSql).pieces f, vacuumSql config.tableName,
       tune.session.keepaliveSql.pieces f,
       (RawSql.session (TuneConfig.fromEnv f env).session.sessionSettings).pieces f] := by
  rw [storeTexts, sessionSql_of_accepted h, List.append_assoc]
  rfl

theorem worded_storeTexts (h : accepted f parse env url = .ok (config, tune)) :
    ∀ ps ∈ storeTexts config tune f, Worded ps := by
  have hname := (accepted_eq_ok h).1
  intro ps hps
  rw [storeTexts_of_accepted h] at hps
  rcases List.mem_append.mp hps with hps | hps
  · exact worded_sql hname ps hps
  · simp only [List.mem_cons, List.not_mem_nil, or_false] at hps
    rcases hps with rfl | rfl | rfl | rfl
    · exact worded_lit worded_nil
    · exact worded_lit (worded_frag hname.isWord worded_nil)
    · exact worded_keepalive f _
    · exact worded_session f env

theorem worded_tableTexts (h : accepted f parse env url = .ok (config, tune)) :
    ∀ ps ∈ tableTexts config tune f, Worded ps := by
  have hname := (accepted_eq_ok h).1
  intro ps hps
  simp only [tableTexts, List.mem_cons, List.not_mem_nil, or_false] at hps
  rcases hps with rfl | rfl
  · exact worded_createTableText f hname
  · exact worded_tuneTableText f (asserts_of_accepted h).2 hname

variable {f' : F64Text} {parse' : Text → Except String Unit} {env' : Env} {url' : Text}
  {config' : PgConfig} {tune' : TuneConfig}

theorem marks_storeTexts (h : accepted f parse env url = .ok (config, tune))
    (h' : accepted f' parse' env' url' = .ok (config', tune')) :
    (storeTexts config tune f).map marks = (storeTexts config' tune' f').map marks := by
  have hname := (accepted_eq_ok h).1
  have hname' := (accepted_eq_ok h').1
  have hsql : (Sql.new config.tableName).texts.map marks =
      (Sql.new config'.tableName).texts.map marks :=
    map_marks_congr (worded_sql hname) (worded_sql hname') rfl (calm_sql _)
  have hvacuum : marks (vacuumSql config.tableName) = marks (vacuumSql config'.tableName) :=
    marks_congr (worded_lit (worded_frag hname.isWord worded_nil))
      (worded_lit (worded_frag hname'.isWord worded_nil)) rfl (calm_vacuum _)
  have hkeepalive : marks (tune.session.keepaliveSql.pieces f) =
      marks (tune'.session.keepaliveSql.pieces f') :=
    marks_congr (worded_keepalive f _) (worded_keepalive f' _) rfl (calm_keepalive f _)
  have hsession := marks_congr (worded_session f env) (worded_session f' env')
    (by rw [shape_session, shape_session]) (calm_session f _)
  rw [storeTexts_of_accepted h, storeTexts_of_accepted h', List.map_append, List.map_append, hsql]
  simp only [List.map_cons, List.map_nil, marks_begin, hvacuum, hkeepalive, hsession]

theorem marks_tableTexts (h : accepted f parse env url = .ok (config, tune))
    (h' : accepted f' parse' env' url' = .ok (config', tune'))
    (hN : tune.hashPartitions = tune'.hashPartitions) (hu : tune.useUnlogged = tune'.useUnlogged) :
    (tableTexts config tune f).map marks = (tableTexts config' tune' f').map marks := by
  refine map_marks_congr (worded_tableTexts h) (worded_tableTexts h') ?_ ?_
  · simp only [tableTexts, List.map_cons, List.map_nil]
    rw [shape_createTableText hN hu, shape_tuneTableText hN]
  · intro hshape hmem
    simp only [tableTexts, List.map_cons, List.map_nil, List.mem_cons, List.not_mem_nil,
      or_false] at hmem
    rcases hmem with rfl | rfl
    · exact closed_createTableText.isSome
    · exact closed_tuneTableText.isSome

end

/-- **No SQL injection from URL or environment.** Once the configuration is accepted, and that is
before anything is sent, every fragment of every text is made of the harmless characters, the name
of the table is an identifier, and two stores send the same statements, quotes and comments, as long
as the partitions and the persistence of the table are the same. -/
theorem fragments_harmless {f : F64Text} {parse : Text → Except String Unit} {env : Env}
    {url : Text} {config : PgConfig} {tune : TuneConfig}
    (h : accepted f parse env url = .ok (config, tune)) :
    (∀ ps ∈ storeTexts config tune f ++ tableTexts config tune f, ∀ x, Piece.frag x ∈ ps →
      x ≠ [] ∧ ∀ c ∈ x, isFragmentChar c = true) ∧
    (∃ c cs, config.tableName.toList = c :: cs ∧ isIdentifierStart c = true ∧
      ∀ d ∈ c :: cs, isIdentifierChar d = true) ∧
    ∀ (f' : F64Text) (parse' : Text → Except String Unit) (env' : Env) (url' : Text)
      (config' : PgConfig) (tune' : TuneConfig),
      accepted f' parse' env' url' = .ok (config', tune') →
      (storeTexts config tune f).map marks = (storeTexts config' tune' f').map marks ∧
      (tune.hashPartitions = tune'.hashPartitions → tune.useUnlogged = tune'.useUnlogged →
        (tableTexts config tune f).map marks = (tableTexts config' tune' f').map marks) := by
  refine ⟨fun ps hps x hx ↦ ?_, ?_, fun f' parse' env' url' config' tune' h' ↦ ?_⟩
  · rcases List.mem_append.mp hps with hps | hps
    · exact fragment_of_isWord (worded_storeTexts h ps hps x hx)
    · exact fragment_of_isWord (worded_tableTexts h ps hps x hx)
  · obtain ⟨⟨c, cs, heq, hstart⟩, hchars, -⟩ := (accepted_eq_ok h).1.chars
    rw [heq] at hchars
    exact ⟨c, cs, heq, hstart, hchars⟩
  · exact ⟨marks_storeTexts h h', marks_tableTexts h h'⟩

/-- A work memory, a timeout and a storage strategy are set. -/
private def configuredEnv : Env := fun key ↦
  ([("PG_TUNED_SERVER_WORK_MEM", " 32MB".toList),
    ("PG_TUNED_QUERY_STATEMENT_TIMEOUT", "1500ms".toList),
    ("PG_TUNED_TABLE_TOAST_STORAGE", "main ".toList)] : List (String × Text)).lookup key

/-- A name of 62 bytes, one of them encoded, and two partitions. -/
private def longNameUrl : Text :=
  "postgres://host/db?table_name=".toList ++ List.replicate 60 'k' ++
    "%5Fv&hash_partitions=2".toList

theorem exists_ok_of_any {ε α : Type} {r : Except ε α} {p : α → Bool}
    (h : r.toOption.any p = true) : ∃ a, r = .ok a ∧ p a = true := by
  cases r with
  | error e => exact absurd h Bool.false_ne_true
  | ok a => exact ⟨a, rfl, h⟩

/-- A start that sends the settings of its connections and then panics over the names of the
partitions. What it sends is made of the values it was given, and has the marks of a start for which
nothing is configured. -/
theorem fragments_harmless_longName :
    ∃ config tune config' tune',
      accepted ⟨fun _ ↦ none, fun _ ↦ ([], 0)⟩ (fun _ ↦ .ok ()) configuredEnv longNameUrl =
        .ok (config, tune) ∧
      accepted ⟨fun _ ↦ none, fun _ ↦ ([], 0)⟩ (fun _ ↦ .ok ()) (fun _ ↦ none)
        "postgres://host/db".toList = .ok (config', tune') ∧
      config.tableName.toList = List.replicate 60 'k' ++ ['_', 'v'] ∧
      tune.session.serverWorkMem = "32MB" ∧
      tune.session.statementTimeout = .fromMillis 1500 ∧ tune.toastStorage = "main" ∧
      tune.createTableSql config.tableName = none ∧
      (∀ ps ∈ storeTexts config tune ⟨fun _ ↦ none, fun _ ↦ ([], 0)⟩ ++
          tableTexts config tune ⟨fun _ ↦ none, fun _ ↦ ([], 0)⟩, ∀ x, Piece.frag x ∈ ps →
        x ≠ [] ∧ ∀ c ∈ x, isFragmentChar c = true) ∧
      (storeTexts config tune ⟨fun _ ↦ none, fun _ ↦ ([], 0)⟩).map marks =
        (storeTexts config' tune' ⟨fun _ ↦ none, fun _ ↦ ([], 0)⟩).map marks := by
  have hlong : ((accepted ⟨fun _ ↦ none, fun _ ↦ ([], 0)⟩ (fun _ ↦ .ok ()) configuredEnv
      longNameUrl).toOption.any fun r ↦ decide
        (r.1.tableName.toList = List.replicate 60 'k' ++ ['_', 'v'] ∧
          r.2.session.serverWorkMem = "32MB" ∧
          r.2.session.statementTimeout = .fromMillis 1500 ∧ r.2.toastStorage = "main" ∧
          r.2.createTableSql r.1.tableName = none)) = true := by
    decide +kernel
  have hplain : ((accepted ⟨fun _ ↦ none, fun _ ↦ ([], 0)⟩ (fun _ ↦ .ok ()) (fun _ ↦ none)
      "postgres://host/db".toList).toOption.any fun _ ↦ true) = true := by
    decide +kernel
  obtain ⟨⟨config, tune⟩, h, hgiven⟩ := exists_ok_of_any hlong
  obtain ⟨⟨config', tune'⟩, h', -⟩ := exists_ok_of_any hplain
  obtain ⟨hname, hmem, htimeout, hstorage, hpanics⟩ := of_decide_eq_true hgiven
  obtain ⟨hharmless, -, hmarks⟩ := fragments_harmless h
  exact ⟨config, tune, config', tune', h, h', hname, hmem, htimeout, hstorage, hpanics,
    hharmless, (hmarks _ _ _ _ _ _ h').1⟩

end SurrealPg
