import SurrealPg.Postgres.Block
import SurrealPg.Postgres.Mvcc

/-!
# Concurrent transactions with savepoints

Unfinished transactions over the rows of one database, each with its savepoints: the writes a
savepoint keeps are those that going back to it restores. Statements may read and write any number
of rows; what they do is given by an engine over whole contents `T`, of which `Shows` says which
rows they are.

A transaction that keeps its snapshot runs its statements on the snapshot under its own writes, and
writes only rows that are as the snapshot shows them. To that rule there is one exception, a row of
the snapshot that was deleted since: nothing is in the way of inserting it, and the transaction is
then torn between two versions of it. What its statements do from then on is left open, and so is
what the transactions do that take a new snapshot for every statement.

Up to that exception a transaction that keeps its snapshot goes on as a block does that was begun on
the snapshot and has the database to itself. As in the model with one row for each statement, the
snapshot is that of the moment at which the first statement takes effect.
-/

namespace Postgres

variable {ι K V T S P E : Type}

/-! ## Writes -/

/-- What a transaction has made of the rows it has written. -/
abbrev Writes (K V : Type) := K → Option (Option V)

namespace Writes

/-- The rows with the writes on top. -/
def onto (w : Writes K V) (rows : K → Option V) (k : K) : Option V := (w k).getD (rows k)

/-- A row that `w` writes is written by `w'`. -/
def Within (w w' : Writes K V) : Prop := ∀ k, w' k = none → w k = none

theorem Within.refl (w : Writes K V) : w.Within w := fun _ h ↦ h

theorem Within.trans {w w' w'' : Writes K V} (h : w.Within w') (h' : w'.Within w'') :
    w.Within w'' := fun k hk ↦ h k (h' k hk)

end Writes

/-- Savepoints that keep ever less of the writes `w`. -/
def Nested : Writes K V → List (String × Writes K V) → Prop
  | _, [] => True
  | w, m :: marks => m.2.Within w ∧ Nested m.2 marks

namespace Nested

variable {w w' : Writes K V} {marks : List (String × Writes K V)}

theorem mono (h : Nested w marks) (hw : w.Within w') : Nested w' marks := by
  cases marks with
  | nil => trivial
  | cons m marks => exact ⟨h.1.trans hw, h.2⟩

theorem resolve {name : String} {v : Writes K V} {rest : List (String × Writes K V)}
    (h : Nested w marks) (hr : Postgres.resolve name marks = some (v, rest)) :
    v.Within w ∧ Nested v rest := by
  induction marks generalizing w with
  | nil => cases hr
  | cons m marks ih =>
    rw [Postgres.resolve] at hr
    split_ifs at hr with hname
    · obtain ⟨rfl, rfl⟩ := Prod.mk.inj (Option.some.inj hr)
      exact h
    · obtain ⟨hw, hnested⟩ := ih h.2 hr
      exact ⟨hw.trans h.1, hnested⟩

end Nested

/-! ## The state -/

/-- Unfinished transactions with their savepoints, most recent first. -/
structure Branches (ι K V : Type) where
  cluster : Cluster ι K V
  marks : ι → List (String × Writes K V)

/-- The transaction has written a row that its snapshot shows and that was deleted since. -/
def Cluster.Torn (c : Cluster ι K V) (t : Txn K V) : Prop :=
  ∃ k, t.own k ≠ none ∧ (c.snapshotOf t).rows k ≠ none ∧ c.rows k = none

/-- The writes `w` add to those of `t` only rows that no other unfinished transaction has
written. -/
def Cluster.Grown (c : Cluster ι K V) (i : ι) (t : Txn K V) (w : Writes K V) : Prop :=
  Writes.Within t.own w ∧ ∀ k, t.own k = none → w k ≠ none → c.Free i k

/-- They add only rows that are as the snapshot shows them. -/
def Cluster.Current (c : Cluster ι K V) (t : Txn K V) (w : Writes K V) : Prop :=
  ∀ k, t.own k = none → w k ≠ none → c.rows k = (c.snapshotOf t).rows k

namespace Branches

/-- A database without unfinished transactions. -/
def quiet (rows : K → Option V) : Branches ι K V := ⟨.quiet rows, fun _ ↦ []⟩

section

variable [DecidableEq ι]

/-- Transaction `i` goes on as `t`, with these savepoints. -/
def put (x : Branches ι K V) (i : ι) (t : Txn K V) (marks : List (String × Writes K V)) :
    Branches ι K V :=
  ⟨x.cluster.put i t, Function.update x.marks i marks⟩

/-- How a statement of transaction `i` may be answered, and what that makes of the database. -/
inductive Answers (G : Engine T S P E) (Shows : T → (K → Option V) → Prop) (x : Branches ι K V)
    (i : ι) : Statement S → Except E P → Branches ι K V → Prop
  | read {t : Txn K V} {s : S} {p : P} {d : T} : x.cluster.txn i = some t → t.aborted = false →
    t.level.keepsSnapshot = true → G.Reads s → Shows d (x.cluster.sees t) →
    G.exec s d = .ok (p, d) →
    Answers G Shows x i (.data s) (.ok p) (x.put i (x.cluster.pin t) (x.marks i))
  | write {t : Txn K V} {s : S} {p : P} {d d' : T} {w : Writes K V} : x.cluster.txn i = some t →
    t.aborted = false → t.level.keepsSnapshot = true → ¬G.Reads s →
    Shows d (x.cluster.sees t) → G.exec s d = .ok (p, d') → x.cluster.Grown i t w →
    x.cluster.Current t w → Shows d' (w.onto (x.cluster.snapshotOf t).rows) →
    Answers G Shows x i (.data s) (.ok p) (x.put i { x.cluster.pin t with own := w } (x.marks i))
  /-- A statement of which nothing more is said. -/
  | stray {t : Txn K V} {s : S} {w : Writes K V} (p : P) : x.cluster.txn i = some t →
    t.aborted = false → (t.level.keepsSnapshot = false ∨
      x.cluster.Torn { x.cluster.pin t with own := w }) → x.cluster.Grown i t w →
    (G.Reads s → w = t.own) →
    Answers G Shows x i (.data s) (.ok p) (x.put i { x.cluster.pin t with own := w } (x.marks i))
  | savepoint {t : Txn K V} (name : String) : x.cluster.txn i = some t → t.aborted = false →
    Answers G Shows x i (.savepoint name) (.ok G.ack) (x.put i t ((name, t.own) :: x.marks i))
  | release {t : Txn K V} {name : String} {w : Writes K V} {marks : List (String × Writes K V)} :
    x.cluster.txn i = some t → t.aborted = false → resolve name (x.marks i) = some (w, marks) →
    Answers G Shows x i (.release name) (.ok G.ack) (x.put i t marks)
  | rollbackTo {t : Txn K V} {name : String} {w : Writes K V}
    {marks : List (String × Writes K V)} : x.cluster.txn i = some t →
    resolve name (x.marks i) = some (w, marks) →
    Answers G Shows x i (.rollbackTo name) (.ok G.ack)
      (x.put i { t with own := w, aborted := false } ((name, w) :: marks))
  | refuse {t : Txn K V} (c : Statement S) (e : E) : x.cluster.txn i = some t →
    Answers G Shows x i c (.error e) (x.put i { t with aborted := true } (x.marks i))

/-- How transaction `i` may end: what it has written becomes visible, if contents come of it, or
nothing does. -/
inductive Ends (Shows : T → (K → Option V) → Prop) (x : Branches ι K V) (i : ι) :
    Bool → Branches ι K V → Prop
  | commit {t : Txn K V} {d : T} : x.cluster.txn i = some t → t.aborted = false →
    Shows d (Writes.onto t.own x.cluster.rows) →
    Ends Shows x i true ⟨x.cluster.commit i t, Function.update x.marks i []⟩
  | rollback : Ends Shows x i false ⟨x.cluster.rollback i, Function.update x.marks i []⟩

end

/-! ## Well-formed states -/

variable [DecidableEq ι] {G : Engine T S P E} {Shows : T → (K → Option V) → Prop}
  {x x' : Branches ι K V} {i j : ι} {t : Txn K V} {marks : List (String × Writes K V)}

@[simp] theorem put_cluster : (x.put i t marks).cluster = x.cluster.put i t := rfl

@[simp] theorem put_marks_self : (x.put i t marks).marks i = marks := Function.update_self ..

theorem put_marks_of_ne (h : j ≠ i) : (x.put i t marks).marks j = x.marks j :=
  Function.update_of_ne h ..

omit [DecidableEq ι] in
/-- What every reachable state satisfies. -/
structure WellFormed (Shows : T → (K → Option V) → Prop) (x : Branches ι K V) : Prop where
  cluster : x.cluster.WellFormed
  nested : ∀ {i t}, x.cluster.txn i = some t → Nested t.own (x.marks i)
  /-- The rows as committed last are contents. -/
  shown : ∃ d, Shows d x.cluster.rows

namespace WellFormed

omit [DecidableEq ι] in
theorem quiet {d : T} {rows : K → Option V} (h : Shows d rows) :
    (Branches.quiet rows : Branches ι K V).WellFormed Shows where
  cluster := Cluster.wellFormed_quiet rows
  nested h := absurd h (Option.some_ne_none _).symm
  shown := ⟨d, h⟩

theorem put (h : x.WellFormed Shows) (hown : ∀ k, t.own k ≠ none → x.cluster.Free i k)
    (hsnap : ∀ snap, t.snapshot = some snap → x.cluster.Coherent snap)
    (hnested : Nested t.own marks) : (x.put i t marks).WellFormed Shows where
  cluster := h.cluster.put hown hsnap
  nested := by
    intro j u hj
    by_cases hji : j = i
    · subst hji
      obtain rfl : t = u := by simpa using hj
      rwa [put_marks_self]
    · rw [put_cluster, Cluster.put_txn_of_ne hji] at hj
      rw [put_marks_of_ne hji]
      exact h.nested hj
  shown := h.shown

theorem «begin» (h : x.WellFormed Shows) (i : ι) (level : Isolation) :
    (x.put i (.begin level) []).WellFormed Shows :=
  h.put (fun _ hown ↦ absurd rfl hown) (fun _ hsnap ↦ absurd hsnap (Option.some_ne_none _).symm)
    trivial

theorem mark (h : x.WellFormed Shows) (ht : x.cluster.txn i = some t) (aborted : Bool)
    (hnested : Nested t.own marks) :
    (x.put i { t with aborted := aborted } marks).WellFormed Shows :=
  h.put (fun _ hown ↦ h.cluster.exclusive ht hown) (fun _ hsnap ↦ h.cluster.coherent ht hsnap)
    hnested

theorem grow (h : x.WellFormed Shows) (ht : x.cluster.txn i = some t) {w : Writes K V}
    (hw : x.cluster.Grown i t w) :
    (x.put i { x.cluster.pin t with own := w } (x.marks i)).WellFormed Shows := by
  have hpin := h.cluster.pin ht
  refine h.put (fun k hown ↦ ?_) (fun snap hsnap ↦ hpin.coherent Cluster.put_txn_self hsnap)
    ((h.nested ht).mono hw.1)
  cases hk : t.own k with
  | none => exact hw.2 k hk hown
  | some v => exact h.cluster.exclusive ht (by rw [hk]; exact Option.some_ne_none v)

theorem back (h : x.WellFormed Shows) (ht : x.cluster.txn i = some t) {name : String}
    {w : Writes K V} (hr : resolve name (x.marks i) = some (w, marks)) :
    (x.put i { t with own := w, aborted := false } ((name, w) :: marks)).WellFormed Shows := by
  obtain ⟨hw, hnested⟩ := (h.nested ht).resolve hr
  refine h.put (fun k hown ↦ h.cluster.exclusive ht fun hk ↦ hown (hw k hk))
    (fun _ hsnap ↦ h.cluster.coherent ht hsnap) ⟨.refl w, hnested⟩

/-- **Every answer** leaves a well-formed state. -/
theorem answers {c : Statement S} {r : Except E P} (h : x.WellFormed Shows)
    (hans : x.Answers G Shows i c r x') : x'.WellFormed Shows := by
  cases hans with
  | read ht =>
    have hpin := h.cluster.pin ht
    refine h.put (fun k hown ↦ ?_) (fun snap hsnap ↦ hpin.coherent Cluster.put_txn_self hsnap) ?_
    · rw [Cluster.pin_own] at hown
      exact h.cluster.exclusive ht hown
    · rw [Cluster.pin_own]
      exact h.nested ht
  | write ht _ _ _ _ _ hw => exact h.grow ht hw
  | stray p ht _ _ hw => exact h.grow ht hw
  | @savepoint t name ht => exact h.mark ht t.aborted ⟨.refl _, h.nested ht⟩
  | @release t name w marks ht _ hr =>
    obtain ⟨hw, hnested⟩ := (h.nested ht).resolve hr
    exact h.mark ht t.aborted (hnested.mono hw)
  | rollbackTo ht hr => exact h.back ht hr
  | refuse c e ht => exact h.mark ht true (h.nested ht)

/-- **Every end** leaves a well-formed state. -/
theorem ends {effective : Bool} (h : x.WellFormed Shows) (hend : x.Ends Shows i effective x') :
    x'.WellFormed Shows := by
  have hmarks {c : Cluster ι K V} (hold : ∀ {j u}, c.txn j = some u → x.cluster.txn j = some u)
      (hi : c.txn i = none) {j : ι} {u : Txn K V} (hj : c.txn j = some u) :
      Nested u.own (Function.update x.marks i [] j) := by
    have hji : j ≠ i := by
      rintro rfl
      cases hi.symm.trans hj
    rw [Function.update_of_ne hji]
    exact h.nested (hold hj)
  cases hend with
  | @commit t d ht hab hd =>
    refine ⟨h.cluster.commit i t, hmarks (fun {j u} hj ↦ ?_) Cluster.commit_txn_self, d, hd⟩
    by_cases hji : j = i
    · rw [hji, Cluster.commit_txn_self] at hj
      cases hj
    · rwa [Cluster.commit_txn_of_ne hji] at hj
  | rollback =>
    refine ⟨h.cluster.rollback i, hmarks (fun {j u} hj ↦ ?_) Cluster.rollback_txn_self, h.shown⟩
    by_cases hji : j = i
    · rw [hji, Cluster.rollback_txn_self] at hj
      cases hj
    · rwa [Cluster.rollback_txn_of_ne hji] at hj

end WellFormed

/-! ## The other transactions -/

/-- What another transaction does leaves transaction `j` as it is. -/
structure Aside (x x' : Branches ι K V) (j : ι) : Prop where
  txn : x'.cluster.txn j = x.cluster.txn j
  marks : x'.marks j = x.marks j

theorem aside_put (hj : j ≠ i) : Aside x (x.put i t marks) j :=
  ⟨Cluster.put_txn_of_ne hj, put_marks_of_ne hj⟩

theorem Answers.aside {c : Statement S} {r : Except E P} (h : x.Answers G Shows i c r x')
    (hj : j ≠ i) : Aside x x' j := by
  cases h with
  | read | write | stray | savepoint | release | rollbackTo | refuse => exact aside_put hj

/-- **Only an end** changes what is committed. -/
theorem Answers.rows_eq {c : Statement S} {r : Except E P} (h : x.Answers G Shows i c r x') :
    x'.cluster.rows = x.cluster.rows := by
  cases h with
  | read | write | stray | savepoint | release | rollbackTo | refuse => rfl

theorem Ends.aside {effective : Bool} (h : x.Ends Shows i effective x') (hj : j ≠ i) :
    Aside x x' j := by
  cases h with
  | commit => exact ⟨Cluster.commit_txn_of_ne hj, Function.update_of_ne hj ..⟩
  | rollback => exact ⟨Cluster.rollback_txn_of_ne hj, Function.update_of_ne hj ..⟩

/-! ## First updater wins -/

/-- Transaction `t` keeps its snapshot, and the rows it has written are still committed as that
shows them. -/
def Clean (x : Branches ι K V) (t : Txn K V) : Prop :=
  t.level.keepsSnapshot = true ∧ ∀ k, t.own k ≠ none →
    ∃ snap, t.snapshot = some snap ∧ x.cluster.rows k = snap.rows k

theorem Clean.ends {effective : Bool} (hclean : x.Clean t) (h : x.WellFormed Shows)
    (ht : x.cluster.txn j = some t) (hend : x.Ends Shows i effective x') (hj : j ≠ i) :
    x'.Clean t := by
  refine ⟨hclean.1, fun k hk ↦ ?_⟩
  obtain ⟨snap, hsnap, hrow⟩ := hclean.2 k hk
  refine ⟨snap, hsnap, ?_⟩
  cases hend with
  | @commit u d hu =>
    have hown : u.own k = none := h.cluster.exclusive ht hk i u (Ne.symm hj) hu
    exact (Cluster.commit_rows_of_none hown).trans hrow
  | rollback => exact hrow

/-! ## The block that is shadowed -/

/-- Block `b`, begun on contents that show `rows`, is where transaction `t` with these savepoints
is. -/
structure Shadows (Shows : T → (K → Option V) → Prop) (rows : K → Option V) (t : Txn K V)
    (marks : List (String × Writes K V)) (b : Block T) : Prop where
  base : Shows b.base rows
  cur : Shows b.cur (Writes.onto t.own rows)
  marks : List.Forall₂ (fun m m' ↦ m'.1 = m.1 ∧ Shows m'.2 (Writes.onto m.2 rows)) marks b.marks
  aborted : b.aborted = t.aborted

omit [DecidableEq ι] in
theorem shadows_begin {d : T} {rows : K → Option V} (h : Shows d rows) (level : Isolation) :
    Shadows Shows rows (.begin level) [] (Block.begin d) :=
  ⟨h, h, .nil, rfl⟩

omit [DecidableEq ι] in
theorem resolve_forall₂ {T' : Type} {R : T → T' → Prop} {ms : List (String × T)}
    {ms' : List (String × T')} (h : List.Forall₂ (fun m m' ↦ m'.1 = m.1 ∧ R m.2 m'.2) ms ms')
    {name : String} {v : T} {rest : List (String × T)}
    (hr : resolve name ms = some (v, rest)) : ∃ v' rest', resolve name ms' = some (v', rest') ∧
      R v v' ∧ List.Forall₂ (fun m m' ↦ m'.1 = m.1 ∧ R m.2 m'.2) rest rest' := by
  induction h with
  | nil => cases hr
  | @cons m m' ms ms' hm hms ih =>
    rw [resolve] at hr ⊢
    rw [hm.1]
    split_ifs at hr ⊢ with hname
    · obtain ⟨rfl, rfl⟩ := Prod.mk.inj (Option.some.inj hr)
      exact ⟨_, _, rfl, hm.2, hms⟩
    · exact ih hr

/-- The server's own reason to refuse a statement that is answered `r`. -/
def refusalOf : Except E P → Option E
  | .ok _ => none
  | .error e => some e

/-- A statement of transaction `t` that goes by the rule of snapshots: the snapshot is taken by the
first one that succeeds, and any block that `t` shadows answers the same. -/
structure Mirrored (G : Engine T S P E) (Shows : T → (K → Option V) → Prop)
    (x x' : Branches ι K V) (i : ι) (t : Txn K V) (c : Statement S) (r : Except E P)
    (t' : Txn K V) : Prop where
  txn : x'.cluster.txn i = some t'
  clean : x'.Clean t'
  snapshot : t'.snapshot = t.snapshot ∨ t'.snapshot = some (x.cluster.snapshotOf t)
  pinned : ∀ s p, c = .data s → r = .ok p → t'.snapshot = some (x.cluster.snapshotOf t)
  run : ∀ rows b, Shadows Shows rows t (x.marks i) b →
    (∀ snap, t'.snapshot = some snap → snap.rows = rows) →
      (b.run G (refusalOf r) c).1 = r ∧
        Shadows Shows rows t' (x'.marks i) (b.run G (refusalOf r) c).2

section

variable {b : Block T} {c : Statement S} {r : Except E P} {p : P} {t' : Txn K V}

theorem mirrored_of_attempt (hclean : x.Clean t')
    (hsnap : t'.snapshot = t.snapshot ∨ t'.snapshot = some (x.cluster.snapshotOf t))
    (hpinned : ∀ s, c = .data s → t'.snapshot = some (x.cluster.snapshotOf t))
    (hrun : ∀ rows b, Shadows Shows rows t (x.marks i) b →
      (∀ snap, t'.snapshot = some snap → snap.rows = rows) →
        ∃ a, b.attempt G c = .ok (p, a) ∧ Shadows Shows rows t' marks a) :
    Mirrored G Shows x (x.put i t' marks) i t c (.ok p) t' where
  txn := Cluster.put_txn_self
  clean := hclean
  snapshot := hsnap
  pinned s _ hs _ := hpinned s hs
  run rows b hb hrows := by
    obtain ⟨a, hatt, ha⟩ := hrun rows b hb hrows
    rw [refusalOf, Block.run_of_answered hatt, put_marks_self]
    exact ⟨rfl, ha⟩

theorem mirrored_of_exec (huniq : ∀ d d' f, Shows d f → Shows d' f → d = d') {s : S} {d d' : T}
    {w : Writes K V} (hclean : x.Clean t) (hab : t.aborted = false)
    (hd : Shows d (x.cluster.sees t)) (hexec : G.exec s d = .ok (p, d'))
    (hcurrent : x.cluster.Current t w)
    (hd' : Shows d' (w.onto (x.cluster.snapshotOf t).rows)) :
    Mirrored G Shows x (x.put i { x.cluster.pin t with own := w } (x.marks i)) i t (.data s) (.ok p)
      { x.cluster.pin t with own := w } := by
  have hsnap := Cluster.pin_snapshot (c := x.cluster) hclean.1
  refine mirrored_of_attempt ⟨?_, fun k hk ↦ ⟨_, hsnap, ?_⟩⟩ (Or.inr hsnap) (fun _ _ ↦ hsnap)
    fun rows b hb hrows ↦ ?_
  · rw [Cluster.pin, if_pos hclean.1]
    exact hclean.1
  · cases hown : t.own k with
    | none => exact hcurrent k hown hk
    | some v =>
      obtain ⟨snap, hsnap', hrow⟩ := hclean.2 k (by rw [hown]; exact Option.some_ne_none v)
      rw [Cluster.snapshotOf, hsnap']
      exact hrow
  · obtain rfl := hrows _ hsnap
    have hview : b.cur = d := huniq _ _ _ hb.cur hd
    refine ⟨{ b with cur := d' }, ?_, hb.base, hd', hb.marks, hb.aborted.trans ?_⟩
    · rw [Block.attempt, if_neg (by rw [hb.aborted, hab]; exact Bool.false_ne_true), hview, hexec]
      rfl
    · exact Cluster.pin_aborted.symm

/-- **A statement of a transaction that keeps its snapshot** does what it does in the block, unless
it leaves the transaction torn. -/
theorem Answers.mirrored (huniq : ∀ d d' f, Shows d f → Shows d' f → d = d')
    (h : x.WellFormed Shows) (hans : x.Answers G Shows i c r x') (ht : x.cluster.txn i = some t)
    (hclean : x.Clean t) :
    (∃ t', x'.cluster.txn i = some t' ∧ x'.cluster.Torn t') ∨
      ∃ t', Mirrored G Shows x x' i t c r t' := by
  cases hans with
  | @read u s p d hu hab hkeep hreads hd hexec =>
    obtain rfl := Option.some.inj (ht.symm.trans hu)
    have hcurrent : x.cluster.Current t t.own := fun k hk hk' ↦ absurd hk hk'
    have hmirrored : Mirrored G Shows x _ i t (.data s) (.ok p) _ :=
      mirrored_of_exec huniq hclean hab hd hexec hcurrent hd
    rw [← Cluster.pin_own (c := x.cluster) (t := t)] at hmirrored
    exact Or.inr ⟨_, hmirrored⟩
  | @write u s p d d' w hu hab hkeep hreads hd hexec hgrown hcurrent hd' =>
    obtain rfl := Option.some.inj (ht.symm.trans hu)
    have hmirrored : Mirrored G Shows x _ i t (.data s) (.ok p) _ :=
      mirrored_of_exec huniq hclean hab hd hexec hcurrent hd'
    exact Or.inr ⟨_, hmirrored⟩
  | @stray u s w p hu hab hstray hgrown =>
    obtain rfl := Option.some.inj (ht.symm.trans hu)
    obtain hkeep | htorn := hstray
    · cases hkeep.symm.trans hclean.1
    · exact Or.inl ⟨_, Cluster.put_txn_self, htorn⟩
  | @savepoint u name hu hab =>
    obtain rfl := Option.some.inj (ht.symm.trans hu)
    refine Or.inr ⟨_, mirrored_of_attempt hclean (Or.inl rfl) (by simp) fun rows b hb _ ↦ ?_⟩
    refine ⟨{ b with marks := (name, b.cur) :: b.marks }, ?_, hb.base, hb.cur,
      .cons ⟨rfl, hb.cur⟩ hb.marks, hb.aborted⟩
    rw [Block.attempt, if_neg (by rw [hb.aborted, hab]; exact Bool.false_ne_true)]
  | @release u name w marks hu hab hr =>
    obtain rfl := Option.some.inj (ht.symm.trans hu)
    refine Or.inr ⟨_, mirrored_of_attempt hclean (Or.inl rfl) (by simp) fun rows b hb _ ↦ ?_⟩
    obtain ⟨d, marks', hr', -, hmarks⟩ := resolve_forall₂
      (R := fun w d ↦ Shows d (Writes.onto w rows)) hb.marks hr
    refine ⟨{ b with marks := marks' }, ?_, hb.base, hb.cur, hmarks, hb.aborted⟩
    rw [Block.attempt, if_neg (by rw [hb.aborted, hab]; exact Bool.false_ne_true), hr']
  | @rollbackTo u name w marks hu hr =>
    obtain rfl := Option.some.inj (ht.symm.trans hu)
    have hback : x.Clean { t with own := w, aborted := false } :=
      ⟨hclean.1, fun k hk ↦ hclean.2 k fun hown ↦ hk (((h.nested ht).resolve hr).1 k hown)⟩
    refine Or.inr ⟨_, mirrored_of_attempt hback (Or.inl rfl) (by simp) fun rows b hb _ ↦ ?_⟩
    obtain ⟨d, marks', hr', hd, hmarks⟩ := resolve_forall₂
      (R := fun w d ↦ Shows d (Writes.onto w rows)) hb.marks hr
    refine ⟨{ b with cur := d, marks := (name, d) :: marks', aborted := false }, ?_, hb.base, hd,
      .cons ⟨rfl, hd⟩ hmarks, rfl⟩
    rw [Block.attempt, hr']
  | @refuse u c e hu =>
    obtain rfl := Option.some.inj (ht.symm.trans hu)
    refine Or.inr ⟨{ t with aborted := true }, Cluster.put_txn_self, hclean, Or.inl rfl, by simp,
      fun rows b hb _ ↦ ⟨rfl, hb.base, hb.cur, ?_, rfl⟩⟩
    rw [put_marks_self]
    exact hb.marks

/-- **A transaction that only reads** has written nothing. -/
theorem Answers.untouched (h : x.WellFormed Shows) (hans : x.Answers G Shows i c r x')
    (ht : x.cluster.txn i = some t) (hown : ∀ k, t.own k = none)
    (hreads : ∀ s, c = .data s → G.Reads s) :
    ∃ t', x'.cluster.txn i = some t' ∧ ∀ k, t'.own k = none := by
  cases hans with
  | @read u s p d hu =>
    obtain rfl := Option.some.inj (ht.symm.trans hu)
    refine ⟨_, Cluster.put_txn_self, ?_⟩
    rw [Cluster.pin_own]
    exact hown
  | @write u s p d d' w hu _ _ hwrites => exact absurd (hreads s rfl) hwrites
  | @stray u s w p hu _ _ _ hsame =>
    obtain rfl := Option.some.inj (ht.symm.trans hu)
    exact ⟨_, Cluster.put_txn_self, fun k ↦ by rw [hsame (hreads s rfl), hown]⟩
  | @savepoint u name hu | @release u name w marks hu | @refuse u c e hu =>
    obtain rfl := Option.some.inj (ht.symm.trans hu)
    exact ⟨_, Cluster.put_txn_self, hown⟩
  | @rollbackTo u name w marks hu hr =>
    obtain rfl := Option.some.inj (ht.symm.trans hu)
    exact ⟨_, Cluster.put_txn_self, fun k ↦ ((h.nested ht).resolve hr).1 k (hown k)⟩

end

end Branches

end Postgres
