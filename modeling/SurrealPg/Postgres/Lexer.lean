import Mathlib.Data.List.Basic

/-!
# The lexical structure of SQL text

Where the statements of a text begin and end, and where its quotes and comments do, as PostgreSQL
reads it: strings in single quotes, identifiers in double quotes, strings between dollar tags, line
comments, and block comments, which nest. A doubled quote inside a string ends it and begins it
again. Escape strings (`E'..'`) and identifiers that contain a dollar sign are not told apart from
their plain forms.

The point of the scanner is what it does not see: a word that stands where a word may stand, in a
statement that has begun, in a string or in a line comment, leaves no mark.
-/

namespace Postgres

/-- What the scanner reports. -/
inductive Mark
  /-- A statement begins, or ends with a semicolon. -/
  | begin
  | finish
  | openQuote
  | closeQuote
  | openIdent
  | closeIdent
  | openDollar
  | closeDollar
  | openLine
  | closeLine
  | openBlock
  | closeBlock
  deriving DecidableEq

/-- Where the scanner is. -/
inductive Mode
  | code
  /-- After one `-`, or one `/`. -/
  | dash
  | slash
  | quoted
  | ident
  | line
  /-- In block comments, so many deep, and there after `*`, or after `/`. -/
  | block (depth : ℕ)
  | star (depth : ℕ)
  | blockSlash (depth : ℕ)
  /-- After a dollar sign and the beginning of a tag. -/
  | dollar (tag : List Char)
  /-- In a string with that tag, and what has come after the last dollar sign. -/
  | dollarQuoted (tag : List Char) (seen : Option (List Char))
  deriving DecidableEq

/-- The scanner: where it is, and whether a statement has begun. -/
structure Scan where
  mode : Mode
  begun : Bool
  deriving DecidableEq

/-- The characters of numbers and of identifiers. -/
def isWordChar (c : Char) : Bool := c.isAlphanum || c == '_' || c == '.'

namespace Scan

/-- The mark of a statement that begins here, unless it has begun. -/
def beginning (begun : Bool) : List Mark := if begun then [] else [.begin]

/-- A character outside quotes and comments. -/
def stepCode (begun : Bool) (c : Char) : List Mark × Scan :=
  if c = '\'' then (beginning begun ++ [.openQuote], ⟨.quoted, true⟩)
  else if c = '"' then (beginning begun ++ [.openIdent], ⟨.ident, true⟩)
  else if c = '-' then ([], ⟨.dash, begun⟩)
  else if c = '/' then ([], ⟨.slash, begun⟩)
  else if c = '$' then (beginning begun, ⟨.dollar [], true⟩)
  else if c = ';' then (if begun then [.finish] else [], ⟨.code, false⟩)
  else if c.isWhitespace then ([], ⟨.code, begun⟩)
  else (beginning begun, ⟨.code, true⟩)

/-- One character. -/
def step (s : Scan) (c : Char) : List Mark × Scan :=
  match s.mode with
  | .code => stepCode s.begun c
  | .dash =>
    if c = '-' then ([.openLine], ⟨.line, s.begun⟩)
    else (beginning s.begun ++ (stepCode true c).1, (stepCode true c).2)
  | .slash =>
    if c = '*' then ([.openBlock], ⟨.block 1, s.begun⟩)
    else (beginning s.begun ++ (stepCode true c).1, (stepCode true c).2)
  | .quoted => if c = '\'' then ([.closeQuote], ⟨.code, true⟩) else ([], s)
  | .ident => if c = '"' then ([.closeIdent], ⟨.code, true⟩) else ([], s)
  | .line => if c = '\n' then ([.closeLine], ⟨.code, s.begun⟩) else ([], s)
  | .block d =>
    if c = '*' then ([], ⟨.star d, s.begun⟩)
    else if c = '/' then ([], ⟨.blockSlash d, s.begun⟩) else ([], s)
  | .star d =>
    if c = '/' then
      if d ≤ 1 then ([.closeBlock], ⟨.code, s.begun⟩) else ([], ⟨.block (d - 1), s.begun⟩)
    else if c = '*' then ([], s) else ([], ⟨.block d, s.begun⟩)
  | .blockSlash d =>
    if c = '*' then ([], ⟨.block (d + 1), s.begun⟩)
    else if c = '/' then ([], s) else ([], ⟨.block d, s.begun⟩)
  | .dollar tag =>
    if c = '$' then ([.openDollar], ⟨.dollarQuoted tag none, s.begun⟩)
    else if (c.isAlphanum || c == '_') && !(tag.isEmpty && c.isDigit) then
      ([], ⟨.dollar (tag ++ [c]), s.begun⟩)
    -- a parameter, and no tag
    else stepCode true c
  | .dollarQuoted tag seen =>
    if c = '$' then
      if seen = some tag then ([.closeDollar], ⟨.code, s.begun⟩)
      else ([], ⟨.dollarQuoted tag (some []), s.begun⟩)
    else ([], ⟨.dollarQuoted tag (seen.map (· ++ [c])), s.begun⟩)

/-- The marks of a text, and where the scanner is after it. -/
def run : Scan → List Char → List Mark × Scan
  | s, [] => ([], s)
  | s, c :: cs => ((step s c).1 ++ (run (step s c).2 cs).1, (run (step s c).2 cs).2)

/-- Where a text begins. -/
def start : Scan := ⟨.code, false⟩

theorem run_cons (s : Scan) (c : Char) (cs : List Char) :
    run s (c :: cs) =
      ((step s c).1 ++ (run (step s c).2 cs).1, (run (step s c).2 cs).2) := rfl

theorem run_append (s : Scan) (xs ys : List Char) :
    run s (xs ++ ys) =
      ((run s xs).1 ++ (run (run s xs).2 ys).1, (run (run s xs).2 ys).2) := by
  induction xs generalizing s with
  | nil => rfl
  | cons x xs ih => rw [List.cons_append, run_cons, ih, run_cons, List.append_assoc]

/-! ## Words -/

/-- A place where a word leaves no mark. -/
def Calm (s : Scan) : Bool :=
  match s.mode with
  | .code => s.begun
  | .quoted | .line => true
  | _ => false

/-- A word, or the number it is with a sign before it. -/
def IsWord (w : List Char) : Prop :=
  ∃ v, (w = v ∨ w = '-' :: v) ∧ v ≠ [] ∧ ∀ c ∈ v, isWordChar c = true

theorem ne_of_isWordChar {c d : Char} (h : isWordChar c = true) (hd : isWordChar d = false) :
    c ≠ d := by
  rintro rfl
  exact Bool.false_ne_true (hd.symm.trans h)

theorem stepCode_of_isWordChar {c : Char} (h : isWordChar c = true) :
    stepCode true c = ([], ⟨.code, true⟩) := by
  rw [stepCode, if_neg (ne_of_isWordChar h (by decide)), if_neg (ne_of_isWordChar h (by decide)),
    if_neg (ne_of_isWordChar h (by decide)), if_neg (ne_of_isWordChar h (by decide)),
    if_neg (ne_of_isWordChar h (by decide)), if_neg (ne_of_isWordChar h (by decide))]
  split_ifs <;> rfl

/-- The three places where the scanner is calm. -/
theorem calm_cases {s : Scan} (hs : s.Calm = true) :
    s = ⟨.code, true⟩ ∨ s.mode = .quoted ∨ s.mode = .line := by
  obtain ⟨mode, begun⟩ := s
  cases mode with
  | code => exact Or.inl (congrArg (Scan.mk .code) hs)
  | quoted => exact Or.inr (Or.inl rfl)
  | line => exact Or.inr (Or.inr rfl)
  | _ => exact absurd hs Bool.false_ne_true

theorem step_of_isWordChar {s : Scan} (hs : s.Calm = true) {c : Char} (h : isWordChar c = true) :
    s.step c = ([], s) := by
  rcases calm_cases hs with rfl | hmode | hmode
  · exact stepCode_of_isWordChar h
  · rw [step, hmode]
    exact if_neg (ne_of_isWordChar h (by decide))
  · rw [step, hmode]
    exact if_neg (ne_of_isWordChar h (by decide))

/-- A sign is not the first half of a comment if a word follows it. -/
theorem run_sign {s : Scan} (hs : s.Calm = true) {c : Char} (h : isWordChar c = true) :
    s.run ['-', c] = ([], s) := by
  have hinside : s.step '-' = ([], s) → s.run ['-', c] = ([], s) := by
    intro hdash
    rw [run_cons, hdash]
    dsimp only
    rw [run_cons, step_of_isWordChar hs h]
    rfl
  rcases calm_cases hs with rfl | hmode | hmode
  · have hdash : step ⟨.code, true⟩ '-' = ([], ⟨.dash, true⟩) := rfl
    have hnext : step ⟨.dash, true⟩ c = ([], ⟨.code, true⟩) := by
      rw [step]
      dsimp only
      rw [if_neg (ne_of_isWordChar h (by decide)), stepCode_of_isWordChar h]
      rfl
    rw [run_cons, hdash]
    dsimp only
    rw [run_cons, hnext]
    rfl
  · apply hinside
    rw [step, hmode]
    exact if_neg (by decide)
  · apply hinside
    rw [step, hmode]
    exact if_neg (by decide)

theorem run_of_wordChars {s : Scan} (hs : s.Calm = true) {v : List Char}
    (hv : ∀ c ∈ v, isWordChar c = true) : s.run v = ([], s) := by
  induction v with
  | nil => rfl
  | cons c v ih =>
    rw [run_cons, step_of_isWordChar hs (hv c List.mem_cons_self)]
    dsimp only
    rw [ih fun d hd ↦ hv d (List.mem_cons_of_mem _ hd)]
    rfl

/-- **A word leaves no mark.** -/
theorem run_of_isWord {s : Scan} (hs : s.Calm = true) {w : List Char} (hw : IsWord w) :
    s.run w = ([], s) := by
  obtain ⟨v, rfl | rfl, hne, hv⟩ := hw
  · exact run_of_wordChars hs hv
  · obtain ⟨c, v, rfl⟩ := List.exists_cons_of_ne_nil hne
    have hv' : ∀ d ∈ v, isWordChar d = true := fun d hd ↦ hv d (List.mem_cons_of_mem _ hd)
    have hsplit : '-' :: c :: v = ['-', c] ++ v := rfl
    rw [hsplit, run_append, run_sign hs (hv c List.mem_cons_self)]
    dsimp only
    rw [run_of_wordChars hs hv']
    rfl

end Scan

end Postgres
