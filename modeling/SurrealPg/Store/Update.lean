import SurrealPg.Store.Cluster

/-!
# Read, modify, write

Two transactions of one store each read a row, write what they make of it, and commit. A transaction
that keeps its snapshot writes the row only as it has read it, so if both are told that their write
and their commit succeeded, the row is as if one of them had run after the other. Under
`READ COMMITTED` the second to write overwrites what the first has written, whatever it had read,
unless it read after the first had committed.

`commit()` succeeds even if the write was refused before it, so its success alone says nothing.
-/

namespace SurrealPg

open Postgres Semantics

/-! ## The transactions -/

/-- What the owner of a transaction is told. -/
inductive UpdateResult
  /-- `begin` or `get` failed. -/
  | stopped (e : PgStoreError)
  | ended (set commit : Result Unit)

/-- `get`, `set` to what `f` makes of the value read, and `commit()`. -/
def updateRow (key : Key) (f : Option Val → Val) (tx : PgTransaction) : DbAsync UpdateResult := do
  match ← onTx (tx.get key) with
  | .error e => return .stopped e
  | .ok v => do
    let r ← onTx (tx.set key (f v))
    let c ← onTx tx.commit
    return .ended r c.1

/-- The same from `begin(true)` on. -/
def readModifyWrite (s : PgStore) (key : Key) (f : Option Val → Val) : DbAsync UpdateResult := do
  match ← opened s with
  | .error e => return .stopped e
  | .ok tx => updateRow key f tx

/-- Where a transaction is after its `get`. -/
inductive UpdatePhase
  | stopped
  | read (v : Option Val)
  | wrote (v : Option Val) (ok : Bool)
  | closed (v : Option Val) (ok committed : Bool)

namespace UpdatePhase

def May (key : Key) (f : Option Val → Val) : Option UpdatePhase → Request → Prop
  | none, q => q = .sql (.run (.data (.get key)))
  | some (read v), q => q = .sql (.run (.data (.set key (f v))))
  | some (wrote _ _), q => q = .sql .commit
  | some (closed _ _ _), q => q = .releaseActive
  | some stopped, _ => False

/-- What `get` makes of its reply. -/
def ofGet : Except SqlxError Reply → UpdatePhase
  | .ok p => read (p.rows.head?.map Row.getVal)
  | .error _ => stopped

def next : Option UpdatePhase → (q : Request) → q.Answer → Option UpdatePhase
  | none, .sql (.run _) => fun r ↦ some (ofGet r)
  | some (read v), .sql (.run _) => fun r ↦ some (wrote v r.isOk)
  | some (wrote v ok), .sql .commit => fun r ↦ some (closed v ok r.isOk)
  | some (closed v ok committed), .releaseActive => fun _ ↦ some (closed v ok committed)
  | _, _ => fun _ ↦ none

theorem ofGet_reply (key : Key) (row : Option Val) :
    ofGet (.ok ((Stmt.get key).reply (.found row))) = read row := by
  cases row <;> rfl

end UpdatePhase

/-- The phase of a transaction that was told how it ended. -/
def UpdateResult.Ends (x : Course UpdatePhase) (a : UpdateResult) : Prop :=
  ∀ set commit, a = .ended set commit → ∃ v, x = .under (.closed v set.isOk commit.isOk)

def updating (s : PgStore) (key : Key) :
    Typestate (Option Val → Val) DbReq DbReq.Answer Unit UpdateResult (Course UpdatePhase) where
  start _ := .opening .outside
  may f := Course.May s (UpdatePhase.May key f)
  next := Course.next UpdatePhase.next
  ends _ := UpdateResult.Ends

section

variable {s : PgStore} {key : Key} {f : Option Val → Val} {v : Option Val}

theorem follows_commit_update (conn : TxConn) (r : Result Unit) :
    (onTx (PgTransaction.commit ⟨some conn, true, 0, []⟩) >>= fun c ↦
      (return .ended r c.1 : DbAsync UpdateResult)).Follows
      ((updating s key).may f) (updating s key).next ((updating s key).ends f)
      (.under (.wrote v r.isOk)) := by
  refine Dialogue.Follows.bind
    (Course.follows_close PgTransaction.endsBy_commitInner rfl rfl fun c y hy ↦ ?_)
    fun y _ h ↦ h
  obtain rfl := Option.some.inj hy
  refine ⟨rfl, fun z hz result hc ↦ ?_⟩
  obtain rfl := Option.some.inj hz
  rintro set commit heq
  obtain ⟨rfl, rfl⟩ := UpdateResult.ended.inj heq
  exact ⟨v, by rw [hc]⟩

theorem readModifyWrite_follows (s : PgStore) (key : Key) (f : Option Val → Val) :
    (readModifyWrite s key f).Follows ((updating s key).may f) (updating s key).next
      ((updating s key).ends f) ((updating s key).start f) := by
  refine Course.follows_opened (fun conn ↦ ?_) fun e φ ↦ ?_
  · refine ⟨⟨rfl, rfl⟩, fun r x hx ↦ ?_⟩
    obtain rfl := Option.some.inj hx
    rcases r with e | p
    · exact fun set commit heq ↦ nomatch heq
    · refine ⟨rfl, fun r x hx ↦ ?_⟩
      obtain rfl := Option.some.inj hx
      rcases r with e | p'
      · exact follows_commit_update conn (.error _)
      · exact follows_commit_update conn (.ok ())
  · exact fun set commit heq ↦ nomatch heq

end

/-! ## What every run keeps -/

/-- The `COMMIT` of transaction `i` is answered. -/
def IsCommit (i : Bool) (e : PoolEvent Bool (Option Val → Val) DbReq DbReq.Answer) : Prop :=
  ∃ r, e = .answered i (.tx (.sql .commit)) r

/-- The `get` of transaction `i` is answered. -/
def IsGet (key : Key) (i : Bool) (e : PoolEvent Bool (Option Val → Val) DbReq DbReq.Answer) :
    Prop :=
  ∃ r, e = .answered i (.tx (.sql (.run (.data (.get key))))) r

/-- Transaction `i` has read the row after the other one has committed. -/
def ReadsAfter (key : Key) (tr : List (PoolEvent Bool (Option Val → Val) DbReq DbReq.Answer))
    (i : Bool) : Prop :=
  After (IsCommit (!i)) (IsGet key i) tr

/-- The phases of the two transactions. -/
abbrev UpdatePhases := Phases Bool (Option Val → Val) (Course UpdatePhase)

/-- What is known of the transaction of an update. -/
def Updating (s : PgStore) (key : Key) (c : Cluster Bool Key Val) (i : Bool)
    (f : Option Val → Val) : Course UpdatePhase → Prop
  | .opening φ => Opening s c i φ
  | .under .stopped => True
  | .under (.read v) =>
    ∃ t, c.txn i = some t ∧ t.aborted = false ∧ (∀ k, t.own k = none) ∧
      (s.isolationLevel.level.keepsSnapshot = true →
        ∃ snap, t.snapshot = some snap ∧ snap.rows key = v)
  | .under (.wrote v true) =>
    ∃ t, c.txn i = some t ∧ t.aborted = false ∧ t.own key = some (some (f v))
  | .under (.wrote _ false) => ∃ t, c.txn i = some t ∧ t.aborted = true
  | .under (.closed ..) => c.txn i = none

/-- Transaction `i` has read `v` and may still write what it makes of it. -/
def Holds (ph : UpdatePhases) (i : Bool) (f : Option Val → Val) (v : Option Val) : Prop :=
  ph i = some (.live f (.under (.read v))) ∨ ph i = some (.live f (.under (.wrote v true)))

/-- Transaction `i` has read `v`, has written, and has closed; `told` is whether `commit`
succeeded. -/
def Ended (ph : UpdatePhases) (i : Bool) (f : Option Val → Val) (v : Option Val)
    (told : Bool) : Prop :=
  ph i = some (.live f (.under (.closed v true told)))

/-- No write has been committed. -/
def Untouched (key : Key) (v₀ : Option Val) (c : Cluster Bool Key Val) (ph : UpdatePhases) : Prop :=
  c.rows key = v₀ ∧ (∀ i f v, ¬Ended ph i f v true) ∧ ∀ i f v, Holds ph i f v → v = v₀

/-- The write of transaction `j` has been committed. -/
def Once (key : Key) (v₀ : Option Val) (c : Cluster Bool Key Val) (ph : UpdatePhases)
    (j : Bool) : Prop :=
  ∃ g told, Ended ph j g v₀ told ∧ c.rows key = some (g v₀) ∧ ∀ f v, ¬Ended ph (!j) f v true

/-- The write of transaction `j` has been committed, and then that of the other one. -/
def Twice (s : PgStore) (key : Key) (v₀ : Option Val)
    (tr : List (PoolEvent Bool (Option Val → Val) DbReq DbReq.Answer)) (c : Cluster Bool Key Val)
    (ph : UpdatePhases) (j : Bool) : Prop :=
  ∃ g told f v told', Ended ph j g v₀ told ∧ Ended ph (!j) f v told' ∧
    c.rows key = some (f v) ∧ ¬ReadsAfter key tr j ∧
      (s.isolationLevel.level.keepsSnapshot = true ∨ ReadsAfter key tr (!j) → v = some (g v₀))

/-- What every run keeps. -/
structure Race (s : PgStore) (key : Key) (v₀ : Option Val)
    (tr : List (PoolEvent Bool (Option Val → Val) DbReq DbReq.Answer)) (c : Cluster Bool Key Val)
    (ph : UpdatePhases) : Prop where
  wellFormed : c.WellFormed
  uncalled : ∀ i, ph i = none → c.txn i = none
  standing : ∀ i f x, ph i = some (.live f x) → Updating s key c i f x
  committed : ∀ i, (∃ e ∈ tr, IsCommit i e) →
    ∃ f v ok told, ph i = some (.live f (.under (.closed v ok told)))
  /-- Who has read after the other has committed has read the last value. -/
  current : ∀ i f v, Holds ph i f v → ReadsAfter key tr i → c.rows key = v
  /-- Who keeps its snapshot and could write has read the last value. -/
  kept : ∀ i f v, ph i = some (.live f (.under (.wrote v true))) →
    s.isolationLevel.level.keepsSnapshot = true → c.rows key = v
  row : Untouched key v₀ c ph ∨ ∃ j, Once key v₀ c ph j ∨ Twice s key v₀ tr c ph j

section

variable {s : PgStore} {key : Key} {v₀ : Option Val} {c c' : Cluster Bool Key Val}
  {tr : List (PoolEvent Bool (Option Val → Val) DbReq DbReq.Answer)} {ph : UpdatePhases} {i : Bool}
  {f : Option Val → Val} {x x' : Course UpdatePhase}
  {e : PoolEvent Bool (Option Val → Val) DbReq DbReq.Answer}

theorem Updating.congr {j : Bool} (h : Updating s key c j f x) (hc : c'.txn j = c.txn j) :
    Updating s key c' j f x := by
  rcases x with φ | (_ | v | ⟨v, ok⟩ | ⟨v, ok, told⟩)
  · rw [Updating, Opening, hc]
    exact h
  · trivial
  · rw [Updating, hc]
    exact h
  · cases ok with
    | true =>
      rw [Updating, hc]
      exact h
    | false =>
      rw [Updating, hc]
      exact h
  · rw [Updating, hc]
    exact h

theorem Race.idle (h : Race s key v₀ tr c ph) (hcommit : ∀ j, ¬IsCommit j e)
    (hget : ∀ j, ¬IsGet key j e) : Race s key v₀ (tr ++ [e]) c ph := by
  have hreads : ∀ j, ReadsAfter key (tr ++ [e]) j ↔ ReadsAfter key tr j := by
    intro j
    rw [ReadsAfter, after_snoc, or_iff_left fun hnew ↦ hget j hnew.1, ReadsAfter]
  refine ⟨h.wellFormed, h.uncalled, h.standing, fun j hj ↦ ?_, fun j f v hholds hafter ↦ ?_, h.kept,
    ?_⟩
  · obtain ⟨e', he', hj⟩ := hj
    rcases List.mem_append.mp he' with he' | he'
    · exact h.committed j ⟨e', he', hj⟩
    · rw [List.mem_singleton.mp he'] at hj
      exact absurd hj (hcommit j)
  · exact h.current j f v hholds ((hreads j).mp hafter)
  · simp only [Twice, hreads]
    exact h.row

theorem holds_update {j : Bool} {g : Option Val → Val} {w : Option Val}
    (hj : Holds (Function.update ph i (some (.live f x'))) j g w) :
    j = i ∧ g = f ∧ (x' = .under (.read w) ∨ x' = .under (.wrote w true)) ∨
      j ≠ i ∧ Holds ph j g w := by
  rcases hj with hj | hj
  · exact (update_eq_live hj).imp (fun ⟨hji, hg, heq⟩ ↦ ⟨hji, hg, Or.inl heq.symm⟩)
      fun ⟨hji, hold⟩ ↦ ⟨hji, Or.inl hold⟩
  · exact (update_eq_live hj).imp (fun ⟨hji, hg, heq⟩ ↦ ⟨hji, hg, Or.inr heq.symm⟩)
      fun ⟨hji, hold⟩ ↦ ⟨hji, Or.inr hold⟩

theorem Race.advance (h : Race s key v₀ tr c ph) (hwell : c'.WellFormed)
    (hother : ∀ j, j ≠ i → c'.txn j = c.txn j) (hrows : c'.rows key = c.rows key)
    (hcommit : ∀ j, ¬IsCommit j e) (hget : ∀ j, j ≠ i → ¬IsGet key j e)
    (hopen : ∀ f v ok told, ph i ≠ some (.live f (.under (.closed v ok told))))
    (hx : Updating s key c' i f x') (hx' : ∀ v ok told, x' ≠ .under (.closed v ok told))
    (hholds : ∀ v, x' = .under (.read v) ∨ x' = .under (.wrote v true) →
      Holds ph i f v ∧ ¬IsGet key i e ∨ c.rows key = v)
    (hkept : ∀ v, x' = .under (.wrote v true) → s.isolationLevel.level.keepsSnapshot = true →
      c.rows key = v) :
    Race s key v₀ (tr ++ [e]) c' (Function.update ph i (some (.live f x'))) := by
  have hended : ∀ j g v told, Ended (Function.update ph i (some (.live f x'))) j g v told →
      j ≠ i ∧ Ended ph j g v told := by
    intro j g v told hj
    rcases update_eq_live hj with ⟨-, -, heq⟩ | hold
    · exact absurd heq.symm (hx' v true told)
    · exact hold
  -- a value that may still be used was read before, or is the one in the row
  have hvalue : ∀ j g v, Holds (Function.update ph i (some (.live f x'))) j g v →
      Holds ph j g v ∧ (ReadsAfter key (tr ++ [e]) j → ReadsAfter key tr j) ∨ c.rows key = v := by
    intro j g v hj
    rw [ReadsAfter, after_snoc]
    rcases holds_update hj with ⟨rfl, rfl, hphase⟩ | ⟨hji, hold⟩
    · rcases hholds v hphase with ⟨hold, hno⟩ | hrow
      · exact Or.inl ⟨hold, fun hafter ↦ hafter.resolve_right fun hnew ↦ hno hnew.1⟩
      · exact Or.inr hrow
    · exact Or.inl ⟨hold, fun hafter ↦ hafter.resolve_right fun hnew ↦ hget j hji hnew.1⟩
  refine ⟨hwell, fun j hj ↦ ?_, fun j g y hj ↦ ?_, fun j hj ↦ ?_, fun j g v hj hafter ↦ ?_,
    fun j g v hj hkeeps ↦ ?_, ?_⟩
  · obtain ⟨hji, hj⟩ := update_eq_none hj
    rw [hother j hji]
    exact h.uncalled j hj
  · rcases update_eq_live hj with ⟨rfl, rfl, rfl⟩ | ⟨hji, hold⟩
    · exact hx
    · exact (h.standing j g y hold).congr (hother j hji)
  · obtain ⟨e', he', hcom⟩ := hj
    rcases List.mem_append.mp he' with he' | he'
    · obtain ⟨g, v, ok, told, hclosed⟩ := h.committed j ⟨e', he', hcom⟩
      have hji : j ≠ i := by
        rintro rfl
        exact hopen g v ok told hclosed
      exact ⟨g, v, ok, told, by rwa [Function.update_of_ne hji]⟩
    · rw [List.mem_singleton.mp he'] at hcom
      exact absurd hcom (hcommit j)
  · rw [hrows]
    rcases hvalue j g v hj with ⟨hold, hreads⟩ | hrow
    · exact h.current j g v hold (hreads hafter)
    · exact hrow
  · rw [hrows]
    rcases update_eq_live hj with ⟨rfl, rfl, heq⟩ | ⟨hji, hold⟩
    · exact hkept v heq.symm hkeeps
    · exact h.kept j g v hold hkeeps
  · rcases h.row with ⟨hrow, hnone, hread⟩ | ⟨j, ⟨g, told, hj, hrow, hnone⟩ |
      ⟨g, told, f', v, told', hj, hj', -⟩⟩
    · refine Or.inl ⟨hrows.trans hrow, fun j g v hj ↦ ?_, fun j g v hj ↦ ?_⟩
      · exact hnone j g v (hended j g v true hj).2
      · rcases hvalue j g v hj with ⟨hold, -⟩ | hv
        · exact hread j g v hold
        · exact hv.symm.trans hrow
    · have hji : j ≠ i := by
        rintro rfl
        exact hopen g v₀ true told hj
      refine Or.inr ⟨j, Or.inl ⟨g, told, ?_, hrows.trans hrow, fun g v hj ↦ ?_⟩⟩
      · rw [Ended, Function.update_of_ne hji]
        exact hj
      · exact hnone g v (hended (!j) g v true hj).2
    · -- both have closed, so neither goes on
      by_cases hji : j = i
      · rw [hji] at hj
        exact absurd hj (hopen g v₀ true told)
      · rw [← Bool.eq_not_iff.mpr (Ne.symm hji)] at hj'
        exact absurd hj' (hopen f' v true told')

section

variable {v : Option Val} {ok told : Bool} {r : Except SqlxError Reply}

theorem ne_of_ended {j : Bool} {g : Option Val → Val} {w : Option Val} {told : Bool}
    (hi : ph i = some (.live f (.under (.wrote v ok)))) (hj : Ended ph j g w told) : j ≠ i := by
  rintro rfl
  rw [Ended, hi] at hj
  exact nomatch Option.some.inj hj

theorem Race.not_committed (h : Race s key v₀ tr c ph)
    (hi : ph i = some (.live f (.under (.wrote v ok)))) : ¬∃ e ∈ tr, IsCommit i e := by
  intro hcom
  obtain ⟨g, w, ok, told, hclosed⟩ := h.committed i hcom
  rw [hi] at hclosed
  exact nomatch Option.some.inj hclosed

theorem readsAfter_of_commit {j : Bool}
    (h : ReadsAfter key (tr ++ [.answered i (.tx (.sql .commit)) r]) j) : ReadsAfter key tr j := by
  rw [ReadsAfter, after_snoc] at h
  exact h.resolve_right fun ⟨⟨_, heq⟩, _⟩ ↦ nomatch heq

theorem holds_of_closed {j : Bool} {g : Option Val → Val} {w : Option Val}
    (hj : Holds (Function.update ph i (some (.live f (.under (.closed v ok told))))) j g w) :
    j ≠ i ∧ Holds ph j g w :=
  (holds_update hj).resolve_left fun ⟨_, _, heq⟩ ↦ heq.elim (by simp) (by simp)

theorem ended_update (hi : ph i = some (.live f (.under (.wrote v ok)))) {j : Bool}
    {g : Option Val → Val} {w : Option Val} {told : Bool} (hj : Ended ph j g w told) :
    Ended (Function.update ph i (some (.live f x'))) j g w told := by
  rw [Ended, Function.update_of_ne (ne_of_ended hi hj)]
  exact hj

/-- Not both have closed. -/
theorem not_twice (hi : ph i = some (.live f (.under (.wrote v ok)))) {j : Bool} :
    ¬Twice s key v₀ tr c ph j := by
  rintro ⟨g, told, f', w, told', hj, hj', -⟩
  have hji : j = !i := Bool.eq_not_iff.mpr (ne_of_ended hi hj)
  exact ne_of_ended hi hj' (by rw [hji, Bool.not_not])

/-- A transaction that closes without a write that it is told of leaves the row to the others. -/
theorem Race.row_of_lost (h : Race s key v₀ tr c ph)
    (hi : ph i = some (.live f (.under (.wrote v ok)))) (hrow : c'.rows key = c.rows key)
    (hlost : ok = true → told = false) :
    Untouched key v₀ c' (Function.update ph i (some (.live f (.under (.closed v ok told))))) ∨
      ∃ j, Once key v₀ c'
        (Function.update ph i (some (.live f (.under (.closed v ok told))))) j := by
  have hended : ∀ j g w, Ended (Function.update ph i (some (.live f (.under (.closed v ok told)))))
      j g w true → Ended ph j g w true := by
    intro j g w hj
    rcases update_eq_live hj with ⟨-, -, heq⟩ | ⟨-, hold⟩
    · obtain ⟨-, rfl, htold⟩ := UpdatePhase.closed.inj (Course.under.inj heq)
      exact absurd (hlost rfl) (by rw [← htold]; exact Bool.true_eq_false_eq_False)
    · exact hold
  rcases h.row with ⟨hv₀, hnobody, hread⟩ | ⟨j, ⟨g, told', hj, hwritten, hnobody⟩ | htwice⟩
  · exact Or.inl ⟨hrow.trans hv₀, fun j g w hj ↦ hnobody j g w (hended j g w hj),
      fun j g w hj ↦ hread j g w (holds_of_closed hj).2⟩
  · exact Or.inr ⟨j, g, told', ended_update hi hj, hrow.trans hwritten,
      fun g w hj ↦ hnobody g w (hended (!j) g w hj)⟩
  · exact absurd htwice (not_twice hi)

/-- A transaction whose write takes effect is the first, or the second if it has seen the first. -/
theorem Race.row_of_written (h : Race s key v₀ tr c ph)
    (hi : ph i = some (.live f (.under (.wrote v true)))) (hrow : c'.rows key = some (f v)) :
    ∃ j, Once key v₀ c' (Function.update ph i (some (.live f (.under (.closed v true told))))) j ∨
      Twice s key v₀ (tr ++ [.answered i (.tx (.sql .commit)) r]) c'
        (Function.update ph i (some (.live f (.under (.closed v true told))))) j := by
  rcases h.row with ⟨-, hnobody, hread⟩ | ⟨j, ⟨g, told', hj, hwritten, -⟩ | htwice⟩
  · obtain rfl := hread i f v (Or.inr hi)
    refine ⟨i, Or.inl ⟨f, _, Function.update_self .., hrow, fun g w hj ↦ ?_⟩⟩
    rcases update_eq_live hj with ⟨heq, -, -⟩ | ⟨-, hold⟩
    · exact absurd heq (Bool.not_ne_self i)
    · exact hnobody (!i) g w hold
  · obtain rfl : i = !j := Bool.eq_not_iff.mpr (Ne.symm (ne_of_ended hi hj))
    refine ⟨j, Or.inr ⟨g, told', f, v, _, ended_update hi hj, Function.update_self .., hrow,
      ?_, ?_⟩⟩
    · intro hafter
      exact h.not_committed hi (readsAfter_of_commit hafter).exists_left
    · rintro (hkeeps | hafter)
      · exact (h.kept _ f v hi hkeeps).symm.trans hwritten
      · exact (h.current _ f v (Or.inr hi) (readsAfter_of_commit hafter)).symm.trans hwritten
  · exact absurd htwice (not_twice hi)

/-- **The end.** A `COMMIT` either makes the row what the transaction has written, or, where it is
lost or the write was refused, changes nothing and does not succeed after a write that did. -/
theorem Race.close (h : Race s key v₀ tr c ph)
    (hi : ph i = some (.live f (.under (.wrote v ok))))
    (hans : Answers i c (.tx (.sql .commit)) r c') (hnone : c'.txn i = none)
    (hrows : c'.rows = c.rows ∧ (ok = true → r.isOk = false) ∨
      ok = true ∧ c'.rows key = some (f v)) :
    Race s key v₀ (tr ++ [.answered i (.tx (.sql .commit)) r]) c'
      (Function.update ph i (some (.live f (.under (.closed v ok r.isOk))))) := by
  refine ⟨hans.wellFormed h.wellFormed, fun j hj ↦ ?_, fun j g y hj ↦ ?_, fun j hj ↦ ?_,
    fun j g w hj hafter ↦ ?_, fun j g w hj hkeeps ↦ ?_, ?_⟩
  · obtain ⟨hji, hj⟩ := update_eq_none hj
    rw [hans.txn_of_ne hji]
    exact h.uncalled j hj
  · rcases update_eq_live hj with ⟨rfl, rfl, rfl⟩ | ⟨hji, hold⟩
    · exact hnone
    · exact (h.standing j g y hold).congr (hans.txn_of_ne hji)
  · obtain ⟨e', he', hcom⟩ := hj
    by_cases hji : j = i
    · rw [hji, Function.update_self]
      exact ⟨f, v, ok, _, rfl⟩
    · rw [Function.update_of_ne hji]
      rcases List.mem_append.mp he' with he' | he'
      · exact h.committed j ⟨e', he', hcom⟩
      · rw [List.mem_singleton.mp he'] at hcom
        obtain ⟨_, heq⟩ := hcom
        exact absurd (PoolEvent.answered.inj heq).1.symm hji
  · -- the other one cannot have read after a `COMMIT` that is answered only now
    have hcom := (readsAfter_of_commit hafter).exists_left
    rw [← Bool.eq_not_iff.mpr (Ne.symm (holds_of_closed hj).1)] at hcom
    exact absurd hcom (h.not_committed hi)
  · rcases update_eq_live hj with ⟨-, -, heq⟩ | ⟨hji, hold⟩
    · exact nomatch heq
    · rcases hrows with ⟨hsame, -⟩ | ⟨rfl, -⟩
      · rw [hsame]
        exact h.kept j g w hold hkeeps
      · -- two unfinished transactions have not both written the row
        obtain ⟨t, ht, -, hown⟩ := h.standing i f _ hi
        obtain ⟨u, hu, -, hown'⟩ := h.standing j g _ hold
        have hfree := h.wellFormed.exclusive ht (by rw [hown]; exact Option.some_ne_none _)
        rw [hfree j u hji hu] at hown'
        exact nomatch hown'
  · rcases hrows with ⟨hsame, hlost⟩ | ⟨rfl, hwrote⟩
    · exact (h.row_of_lost hi (congrFun hsame key) hlost).imp_right fun ⟨j, hj⟩ ↦ ⟨j, Or.inl hj⟩
    · exact Or.inr (h.row_of_written hi hwrote)

end

theorem Race.get {r : Except SqlxError Reply} (h : Race s key v₀ tr c ph)
    (hi : ph i = some (.live f (.opening .counted)))
    (hans : Answers i c (.tx (.sql (.run (.data (.get key))))) r c') :
    Race s key v₀ (tr ++ [.answered i (.tx (.sql (.run (.data (.get key))))) r]) c'
      (Function.update ph i (some (.live f (.under (UpdatePhase.ofGet r))))) := by
  have hbegun : c.txn i = some (.begin s.isolationLevel.level) := h.standing i f _ hi
  have hrows := congrFun (hans.rows_eq nofun) key
  have hgo : ∀ x : UpdatePhase, Updating s key c' i f (.under x) →
      (x = .stopped ∨ x = .read (c.rows key)) →
      Race s key v₀ (tr ++ [.answered i (.tx (.sql (.run (.data (.get key))))) r]) c'
        (Function.update ph i (some (.live f (.under x)))) := by
    intro x hx hphase
    apply h.advance (hans.wellFormed h.wellFormed) (fun _ ↦ hans.txn_of_ne) hrows
    · exact fun j ⟨_, heq⟩ ↦ nomatch heq
    · exact fun j hji ⟨_, heq⟩ ↦ hji (PoolEvent.answered.inj heq).1.symm
    · intro g w ok told hclosed
      rw [hi] at hclosed
      exact nomatch Option.some.inj hclosed
    · exact hx
    · rcases hphase with rfl | rfl <;> exact nofun
    · rintro w (heq | heq)
      · rcases hphase with rfl | rfl
        · exact nomatch heq
        · exact Or.inr (UpdatePhase.read.inj (Course.under.inj heq))
      · rcases hphase with rfl | rfl <;> exact nomatch heq
    · rcases hphase with rfl | rfl <;> exact nofun
  cases hans with
  | refuse _ e ht => exact hgo .stopped trivial (Or.inl rfl)
  | run ht hrun hacc hexec =>
    obtain rfl := Option.some.inj (hbegun.symm.trans ht)
    obtain ⟨rfl, rfl⟩ := Prod.mk.inj (Option.some.inj hacc)
    cases hexec with
    | read =>
      rw [UpdatePhase.ofGet_reply]
      refine hgo _ ⟨_, Cluster.put_txn_self, ?_, fun k ↦ ?_, fun hkeeps ↦ ?_⟩ (Or.inr rfl)
      · exact Cluster.pin_aborted
      · rw [Cluster.pin_own]
        rfl
      · exact ⟨_, Cluster.pin_snapshot hkeeps, rfl⟩

/-- **The write.** A transaction that keeps its snapshot can only write what it has read. -/
theorem Race.set {v : Option Val} {r : Except SqlxError Reply} (h : Race s key v₀ tr c ph)
    (hi : ph i = some (.live f (.under (.read v))))
    (hans : Answers i c (.tx (.sql (.run (.data (.set key (f v)))))) r c') :
    Race s key v₀ (tr ++ [.answered i (.tx (.sql (.run (.data (.set key (f v)))))) r]) c'
      (Function.update ph i (some (.live f (.under (.wrote v r.isOk))))) := by
  obtain ⟨t, ht, hrun, hown, hsnap⟩ := h.standing i f _ hi
  have hrows := congrFun (hans.rows_eq nofun) key
  have hgo : ∀ ok, Updating s key c' i f (.under (.wrote v ok)) →
      (ok = true → s.isolationLevel.level.keepsSnapshot = true → c.rows key = v) →
      Race s key v₀ (tr ++ [.answered i (.tx (.sql (.run (.data (.set key (f v)))))) r]) c'
        (Function.update ph i (some (.live f (.under (.wrote v ok))))) := by
    intro ok hx hkept
    apply h.advance (hans.wellFormed h.wellFormed) (fun _ ↦ hans.txn_of_ne) hrows
    · exact fun j ⟨_, heq⟩ ↦ nomatch heq
    · exact fun j hji ⟨_, heq⟩ ↦ nomatch heq
    · intro g w ok told hclosed
      rw [hi] at hclosed
      exact nomatch Option.some.inj hclosed
    · exact hx
    · exact nofun
    · rintro w (heq | heq)
      · exact nomatch heq
      · obtain ⟨rfl, -⟩ := UpdatePhase.wrote.inj (Course.under.inj heq)
        exact Or.inl ⟨Or.inl hi, fun ⟨_, heq⟩ ↦ nomatch heq⟩
    · intro w heq
      obtain ⟨rfl, rfl⟩ := UpdatePhase.wrote.inj (Course.under.inj heq)
      exact hkept rfl
  cases hans with
  | refuse _ e ht' => exact hgo false ⟨_, Cluster.put_txn_self, rfl⟩ nofun
  | run ht' hrun' hacc hexec =>
    obtain rfl := Option.some.inj (ht.symm.trans ht')
    obtain ⟨rfl, rfl⟩ := Prod.mk.inj (Option.some.inj hacc)
    cases hexec with
    | skip hseeks => exact absurd hseeks Bool.false_ne_true
    | keep _ _ heffect => exact nomatch heffect
    | hit hfree hover heffect =>
      obtain rfl := Option.some.inj heffect
      refine hgo true ⟨_, Cluster.put_txn_self, ?_, Txn.record_own_self ..⟩ fun _ hkeeps ↦ ?_
      · exact Cluster.pin_aborted.trans hrun
      · obtain ⟨snap, hkept, rfl⟩ := hsnap hkeeps
        cases hrow : c.rows key with
        | some w =>
          have hpresent : c.rows key ≠ none := by
            rw [hrow]
            exact Option.some_ne_none w
          rw [← hrow]
          exact (h.wellFormed.rows_eq_of_not_overtaken ht hkept hover (Or.inr hpresent)).symm
        | none =>
          -- nothing has been written, and what was read is what was there first
          rcases h.row with ⟨hfirst, -, hread⟩ | ⟨j, ⟨g, told, -, hwrote, -⟩ |
            ⟨g, told, f', w, told', -, -, hwrote, -⟩⟩
          · exact (hread i f _ (Or.inl hi)).symm ▸ hrow.symm.trans hfirst
          · exact nomatch hrow.symm.trans hwrote
          · exact nomatch hrow.symm.trans hwrote

/-- **The step lemma.** Whatever a transaction may ask for and however it is answered. -/
theorem Race.answer {q : DbReq} {u : Option Unit} {r : q.Answer} (h : Race s key v₀ tr c ph)
    (hi : ph i = some (.live f x)) (hmay : (updating s key).may f x q u)
    (hans : Answers i c q r c') :
    ∃ x', (updating s key).next x q r = some x' ∧
      Race s key v₀ (tr ++ [.answered i q r]) c' (Function.update ph i (some (.live f x'))) := by
  rcases x with φ | (_ | v | ⟨v, ok⟩ | ⟨v, ok, told⟩)
  · cases q with
    | store q =>
      obtain ⟨u, hphase, hsends⟩ := hmay
      obtain ⟨φ', hφ', hopening⟩ := hans.opening hphase hsends (h.standing i f _ hi)
      have hx : Updating s key c' i f (.opening φ') := hopening
      have hrows := congrFun (hans.rows_eq nofun) key
      refine ⟨.opening φ', congrArg (Option.map Course.opening) hφ', ?_⟩
      apply h.advance (hans.wellFormed h.wellFormed) (fun _ ↦ hans.txn_of_ne) hrows
      · exact fun j ⟨_, heq⟩ ↦ nomatch heq
      · exact fun j hji ⟨_, heq⟩ ↦ nomatch heq
      · intro g w ok told hclosed
        rw [hi] at hclosed
        exact nomatch Option.some.inj hclosed
      · exact hx
      · exact nofun
      · rintro w (heq | heq) <;> exact nomatch heq
      · exact nofun
    | tx q =>
      obtain ⟨rfl, rfl⟩ := hmay
      exact ⟨_, rfl, h.get hi hans⟩
  · cases q with
    | store q => exact hmay.elim
    | tx q => exact hmay.elim
  · cases q with
    | store q => exact hmay.elim
    | tx q =>
      obtain rfl : q = _ := hmay
      exact ⟨_, rfl, h.set hi hans⟩
  · cases q with
    | store q => exact hmay.elim
    | tx q =>
      obtain rfl : q = .sql .commit := hmay
      refine ⟨_, rfl, ?_⟩
      cases hans with
      | commit _ ht hrun =>
        refine h.close hi (.commit r ht hrun) Cluster.commit_txn_self (Or.inr ?_)
        cases ok with
        | true =>
          obtain ⟨t, ht', -, hown⟩ := h.standing i f _ hi
          obtain rfl := Option.some.inj (ht.symm.trans ht')
          exact ⟨rfl, Cluster.commit_rows_of_own hown⟩
        | false =>
          obtain ⟨t, ht', haborted⟩ := h.standing i f _ hi
          obtain rfl := Option.some.inj (ht.symm.trans ht')
          exact nomatch haborted.symm.trans hrun
      | discard _ ht hlost =>
        refine h.close hi (.discard r ht hlost) Cluster.rollback_txn_self (Or.inl ⟨rfl, ?_⟩)
        rintro rfl
        -- a transaction that could write is not aborted, so its COMMIT was refused
        obtain ⟨t, ht', hrun, -⟩ := h.standing i f _ hi
        obtain rfl := Option.some.inj (ht.symm.trans ht')
        rcases hlost with haborted | hrefused
        · exact nomatch haborted.symm.trans hrun
        · exact hrefused
  · cases q with
    | store q => exact hmay.elim
    | tx q =>
      obtain rfl : q = .releaseActive := hmay
      refine ⟨.under (.closed v ok told), rfl, ?_⟩
      rw [← hi, Function.update_eq_self]
      cases hans with
      | release => exact h.idle (fun j ⟨_, heq⟩ ↦ nomatch heq) fun j ⟨_, heq⟩ ↦ nomatch heq

end

theorem race_keeps (s : PgStore) (key : Key) (v₀ : Option Val) :
    (updating s key).Keeps (server (ι := Bool)) (Race s key v₀) where
  call := by
    intro tr c ph i f h hi
    have hnew : Updating s key c i f (.opening .outside) := h.uncalled i hi
    apply h.advance h.wellFormed (fun _ _ ↦ rfl) rfl
    · exact fun j ⟨_, heq⟩ ↦ nomatch heq
    · exact fun j hji ⟨_, heq⟩ ↦ nomatch heq
    · intro g w ok told hclosed
      rw [hi] at hclosed
      exact nomatch hclosed
    · exact hnew
    · exact nofun
    · rintro w (heq | heq) <;> exact nomatch heq
    · exact nofun
  answer := fun h hi hmay hans ↦ h.answer hi hmay hans
  abandon := fun _ _ _ hun ↦ hun.elim

/-! ## The result -/

/-- The transactions begun so far, on the server they run on. -/
abbrev UpdatePool :=
  Pool Bool (Option Val → Val) DbReq DbReq.Answer Unit UpdateResult (Cluster Bool Key Val)

/-- A new transaction, or a statement of one of the two. -/
abbrev UpdateStep (s : PgStore) (key : Key) :
    UpdatePool → PoolEvent Bool (Option Val → Val) DbReq DbReq.Answer → UpdatePool → Prop :=
  Pool.Step server (readModifyWrite s key)

/-- The row is as if one transaction had run after the other. -/
def Serial (row v₀ : Option Val) (f g : Option Val → Val) : Prop :=
  row = some (f (some (g v₀))) ∨ row = some (g (some (f v₀)))

/-- The law: if both commits succeed, no update is lost. -/
def NoLostUpdate (s : PgStore) : Prop :=
  ∀ (key : Key) (rows : Key → Option Val)
    (tr : List (PoolEvent Bool (Option Val → Val) DbReq DbReq.Answer)) (p : UpdatePool),
    Run (UpdateStep s key) (.start (.quiet rows)) tr p →
    ∀ (f g : Option Val → Val) (set set' : Result Unit),
      p.Returned true f (.ended set (.ok ())) → p.Returned false g (.ended set' (.ok ())) →
        Serial (p.mem.rows key) (rows key) f g

/-- **No lost update**, where both are told that their write and their commit succeeded, and they
keep their snapshots or one has read after the other has committed. -/
theorem serial_of_run {s : PgStore} {key : Key} {rows : Key → Option Val}
    {tr : List (PoolEvent Bool (Option Val → Val) DbReq DbReq.Answer)} {p : UpdatePool}
    (hrun : Run (UpdateStep s key) (.start (.quiet rows)) tr p) {f g : Option Val → Val}
    (hf : p.Returned true f (.ended (.ok ()) (.ok ())))
    (hg : p.Returned false g (.ended (.ok ()) (.ok ())))
    (hread : s.isolationLevel ≠ .readCommitted ∨ ∃ i, ReadsAfter key tr i) :
    Serial (p.mem.rows key) (rows key) f g := by
  have h₀ : Race s key (rows key) [] (.quiet rows) fun _ ↦ none := by
    refine ⟨Cluster.wellFormed_quiet rows, fun _ _ ↦ rfl, nofun, ?_, ?_, nofun, Or.inl ?_⟩
    · rintro i ⟨e, he, -⟩
      exact absurd he List.not_mem_nil
    · rintro i f v (heq | heq) <;> exact nomatch heq
    · refine ⟨rfl, (fun i f v heq ↦ nomatch heq), ?_⟩
      rintro i f v (heq | heq) <;> exact nomatch heq
  obtain ⟨ph, h, hfollows⟩ :=
    (race_keeps s key (rows key)).run (fun f ↦ readModifyWrite_follows s key f) h₀ hrun
  have hended : ∀ i f, p.Returned i f (.ended (.ok ()) (.ok ())) → ∃ v, Ended ph i f v true := by
    intro i f hret
    obtain ⟨x, hx, hends⟩ := hfollows.live hret
    obtain ⟨v, rfl⟩ := hends _ _ rfl
    exact ⟨v, hx⟩
  obtain ⟨vf, hf⟩ := hended true f hf
  obtain ⟨vg, hg⟩ := hended false g hg
  have hboth : ∀ i, ∃ f v, Ended ph i f v true := by
    intro i
    cases i with
    | true => exact ⟨f, vf, hf⟩
    | false => exact ⟨g, vg, hg⟩
  -- both commits went through, so the row has been written twice
  rcases h.row with ⟨-, hnobody, -⟩ | ⟨j, ⟨g', told, -, -, hnobody⟩ |
    ⟨g', told, f', v, told', hj, hj', hrow, hfirst, hlast⟩⟩
  · exact absurd hf (hnobody true f vf)
  · obtain ⟨f', v, hj⟩ := hboth (!j)
    exact absurd hj (hnobody f' v)
  -- the last writer read what the first one left: it kept its snapshot, or it read late
  · have hseen : v = some (g' (rows key)) := by
      apply hlast
      rcases hread with hlevel | ⟨i, hafter⟩
      · left
        cases hl : s.isolationLevel with
        | readCommitted => exact absurd hl hlevel
        | repeatableRead | serializable => rfl
      · right
        by_cases hij : i = j
        · rw [hij] at hafter
          exact absurd hafter hfirst
        · rwa [← Bool.eq_not_iff.mpr hij]
    rw [hseen] at hrow
    cases j with
    | true =>
      obtain ⟨rfl, -⟩ := Task.live.inj (Option.some.inj (hf.symm.trans hj))
      obtain ⟨rfl, -⟩ := Task.live.inj (Option.some.inj (hg.symm.trans hj'))
      exact Or.inr hrow
    | false =>
      obtain ⟨rfl, -⟩ := Task.live.inj (Option.some.inj (hg.symm.trans hj))
      obtain ⟨rfl, -⟩ := Task.live.inj (Option.some.inj (hf.symm.trans hj'))
      exact Or.inl hrow

/-! ## Runs of two transactions -/

/-- The two transactions, in states `x` and `y`. -/
def duo (c : Cluster Bool Key Val) (x y : Option (Task (Option Val → Val) (DbAsync UpdateResult))) :
    UpdatePool :=
  ⟨c, fun i ↦ bif i then x else y⟩

section

variable {s : PgStore} {key : Key} {p₀ : UpdatePool} {f : Option Val → Val}
  {tr : List (PoolEvent Bool (Option Val → Val) DbReq DbReq.Answer)} {c c' : Cluster Bool Key Val}
  {x y : Option (Task (Option Val → Val) (DbAsync UpdateResult))}

theorem duo_advance_true (t : Task (Option Val → Val) (DbAsync UpdateResult)) :
    (duo c x y).advance true t c' = duo c' (some t) y := by
  refine congrArg (Pool.mk c') (funext fun i ↦ ?_)
  cases i <;> rfl

theorem duo_advance_false (t : Task (Option Val → Val) (DbAsync UpdateResult)) :
    (duo c x y).advance false t c' = duo c' x (some t) := by
  refine congrArg (Pool.mk c') (funext fun i ↦ ?_)
  cases i <;> rfl

theorem run_first (q : DbReq) (r : q.Answer) (c' : Cluster Bool Key Val) {u : Option Unit}
    {next : q.Answer → DbAsync UpdateResult}
    (h : Run (UpdateStep s key) p₀ tr (duo c (some (.live f (.ask q u next))) y))
    (hans : Answers true c q r c') :
    Run (UpdateStep s key) p₀ (tr ++ [.answered true q r])
      (duo c' (some (.live f (next r))) y) := by
  rw [← duo_advance_true]
  exact h.answered true q r c' rfl hans

theorem run_second (q : DbReq) (r : q.Answer) (c' : Cluster Bool Key Val) {u : Option Unit}
    {next : q.Answer → DbAsync UpdateResult}
    (h : Run (UpdateStep s key) p₀ tr (duo c x (some (.live f (.ask q u next)))))
    (hans : Answers false c q r c') :
    Run (UpdateStep s key) p₀ (tr ++ [.answered false q r])
      (duo c' x (some (.live f (next r)))) := by
  rw [← duo_advance_false]
  exact h.answered false q r c' rfl hans

theorem run_begin_first {l : PgIsolation}
    (h : Run (UpdateStep (.withLevel l) key) p₀ tr (duo c none y)) (f : Option Val → Val) :
    ∃ tr', Run (UpdateStep (.withLevel l) key) p₀ tr'
      (duo (c.put true (.begin l.level))
        (some (.live f (updateRow key f (.newPooled true)))) y) := by
  obtain ⟨tr', h'⟩ := run_opened h true f rfl rfl
  rw [duo_advance_true] at h'
  exact ⟨tr', h'⟩

theorem run_begin_second {l : PgIsolation}
    (h : Run (UpdateStep (.withLevel l) key) p₀ tr (duo c x none)) (f : Option Val → Val) :
    ∃ tr', Run (UpdateStep (.withLevel l) key) p₀ tr'
      (duo (c.put false (.begin l.level)) x
        (some (.live f (updateRow key f (.newPooled true))))) := by
  obtain ⟨tr', h'⟩ := run_opened h false f rfl rfl
  rw [duo_advance_false] at h'
  exact ⟨tr', h'⟩

theorem run_nil_duo (s : PgStore) (key : Key) (c : Cluster Bool Key Val) :
    Run (UpdateStep s key) (.start c) [] (duo c none none) := by
  have heq : (.start c : UpdatePool) = duo c none none :=
    congrArg (Pool.mk c) (funext fun i ↦ by cases i <;> rfl)
  rw [heq]
  exact .nil

end

/-- The update that appends a byte. -/
def appendByte (b : UInt8) (v : Option Val) : Val := v.getD [] ++ [b]

/-- Two transactions that keep their snapshots, one after the other. -/
theorem serial_of_run_repeatableRead :
    ∃ tr p, Run (UpdateStep (.withLevel .repeatableRead) [7]) (.start (.quiet fun _ ↦ none)) tr p ∧
      Serial (p.mem.rows [7]) none (appendByte 1) (appendByte 2) := by
  let c₀ : Cluster Bool Key Val := .quiet fun _ ↦ none
  let t₁ : Txn Key Val := c₀.pin (.begin .repeatableRead)
  let c₁ := ((c₀.put true (.begin .repeatableRead)).put true t₁).put true (t₁.record [7] (some [1]))
  let c₂ := c₁.commit true (t₁.record [7] (some [1]))
  let t₂ : Txn Key Val := c₂.pin (.begin .repeatableRead)
  let c₃ := ((c₂.put false (.begin .repeatableRead)).put false t₂).put false
    (t₂.record [7] (some [1, 2]))
  let c₄ := c₃.commit false (t₂.record [7] (some [1, 2]))
  obtain ⟨tr, h⟩ := run_begin_first (run_nil_duo (.withLevel .repeatableRead) [7] c₀) (appendByte 1)
  have h := run_first (.tx (.sql (.run (.data (.get [7]))))) (.ok ⟨[], 0⟩)
    ((c₀.put true (.begin .repeatableRead)).put true t₁) h
    (.congr (.run rfl rfl rfl .read) rfl rfl)
  have h := run_first (.tx (.sql (.run (.data (.set [7] [1]))))) (.ok ⟨[], 1⟩) c₁ h
    (.congr (.run rfl rfl rfl (.hit (free_of_other nofun) (fun ⟨_, _, hlt, _⟩ ↦ nomatch hlt) rfl))
      rfl rfl)
  have h := run_first (.tx (.sql .commit)) (.ok ⟨[], 0⟩) c₂ h (.commit _ rfl rfl)
  have h := run_first (.tx .releaseActive) () c₂ h .release
  obtain ⟨tr, h⟩ := run_begin_second h (appendByte 2)
  have h := run_second (.tx (.sql (.run (.data (.get [7]))))) (.ok ⟨[.val [1]], 0⟩)
    ((c₂.put false (.begin .repeatableRead)).put false t₂) h
    (.congr (.run rfl rfl rfl .read) rfl rfl)
  have h := run_second (.tx (.sql (.run (.data (.set [7] [1, 2]))))) (.ok ⟨[], 1⟩) c₃ h
    (.congr (.run rfl rfl rfl (.hit (free_of_other nofun) (fun ⟨snap, hsnap, hlt, _⟩ ↦ by
      obtain rfl := Option.some.inj hsnap
      exact absurd hlt (Nat.lt_irrefl 1)) rfl)) rfl rfl)
  have h := run_second (.tx (.sql .commit)) (.ok ⟨[], 0⟩) c₄ h (.commit _ rfl rfl)
  have h := run_second (.tx .releaseActive) () c₄ h .release
  exact ⟨_, _, h, serial_of_run h rfl rfl (Or.inl nofun)⟩

/-- Both read the same row under `READ COMMITTED`, and the second to write overwrites the first. -/
theorem not_noLostUpdate_readCommitted : ¬NoLostUpdate (.withLevel .readCommitted) := by
  intro hlaw
  let c₀ : Cluster Bool Key Val := .quiet fun _ ↦ none
  let t : Txn Key Val := .begin .readCommitted
  let c₁ := (((c₀.put true t).put false t).put true t).put false t
  let c₂ := c₁.put true (t.record [7] (some [1]))
  let c₃ := c₂.commit true (t.record [7] (some [1]))
  let c₄ := c₃.put false (t.record [7] (some [2]))
  let c₅ := c₄.commit false (t.record [7] (some [2]))
  obtain ⟨tr, h⟩ := run_begin_first (run_nil_duo (.withLevel .readCommitted) [7] c₀) (appendByte 1)
  obtain ⟨tr, h⟩ := run_begin_second h (appendByte 2)
  have h := run_first (.tx (.sql (.run (.data (.get [7]))))) (.ok ⟨[], 0⟩)
    (((c₀.put true t).put false t).put true t) h (.congr (.run rfl rfl rfl .read) rfl rfl)
  have h := run_second (.tx (.sql (.run (.data (.get [7]))))) (.ok ⟨[], 0⟩) c₁ h
    (.congr (.run rfl rfl rfl .read) rfl rfl)
  have h := run_first (.tx (.sql (.run (.data (.set [7] [1]))))) (.ok ⟨[], 1⟩) c₂ h
    (.congr (.run rfl rfl rfl (.hit (free_of_other fun u hu ↦ Option.some.inj hu ▸ rfl) nofun rfl))
      rfl rfl)
  have h := run_first (.tx (.sql .commit)) (.ok ⟨[], 0⟩) c₃ h (.commit _ rfl rfl)
  have h := run_second (.tx (.sql (.run (.data (.set [7] [2]))))) (.ok ⟨[], 1⟩) c₄ h
    (.congr (.run rfl rfl rfl (.hit (free_of_other nofun) nofun rfl)) rfl rfl)
  have h := run_second (.tx (.sql .commit)) (.ok ⟨[], 0⟩) c₅ h (.commit _ rfl rfl)
  have h := run_first (.tx .releaseActive) () c₅ h .release
  have h := run_second (.tx .releaseActive) () c₅ h .release
  rcases hlaw [7] _ _ _ h (appendByte 1) (appendByte 2) _ _ rfl rfl with heq | heq
  · exact absurd heq (by decide)
  · exact absurd heq (by decide)

/-- Under `REPEATABLE READ` the second write is refused, and the `COMMIT` after it discards the
transaction and succeeds. -/
theorem not_noLostUpdate_repeatableRead : ¬NoLostUpdate (.withLevel .repeatableRead) := by
  intro hlaw
  let c₀ : Cluster Bool Key Val := .quiet fun _ ↦ none
  let t : Txn Key Val := .begin .repeatableRead
  let t₁ : Txn Key Val := c₀.pin t
  let c₁ := (((c₀.put true t).put false t).put true t₁).put false t₁
  let c₂ := c₁.put true (t₁.record [7] (some [1]))
  let c₃ := c₂.commit true (t₁.record [7] (some [1]))
  let c₄ := c₃.put false { t₁ with aborted := true }
  let c₅ := c₄.rollback false
  obtain ⟨tr, h⟩ := run_begin_first (run_nil_duo (.withLevel .repeatableRead) [7] c₀) (appendByte 1)
  obtain ⟨tr, h⟩ := run_begin_second h (appendByte 2)
  have h := run_first (.tx (.sql (.run (.data (.get [7]))))) (.ok ⟨[], 0⟩)
    (((c₀.put true t).put false t).put true t₁) h (.congr (.run rfl rfl rfl .read) rfl rfl)
  have h := run_second (.tx (.sql (.run (.data (.get [7]))))) (.ok ⟨[], 0⟩) c₁ h
    (.congr (.run rfl rfl rfl .read) rfl rfl)
  have h := run_first (.tx (.sql (.run (.data (.set [7] [1]))))) (.ok ⟨[], 1⟩) c₂ h
    (.congr (.run rfl rfl rfl (.hit (free_of_other fun u hu ↦ Option.some.inj hu ▸ rfl)
      (fun ⟨_, _, hlt, _⟩ ↦ nomatch hlt) rfl)) rfl rfl)
  have h := run_first (.tx (.sql .commit)) (.ok ⟨[], 0⟩) c₃ h (.commit _ rfl rfl)
  have h := run_second (.tx (.sql (.run (.data (.set [7] [2])))))
    (.error (.database (some "40001") "could not serialize access due to concurrent update")) c₄ h
    (.refuse _ _ rfl)
  have h := run_second (.tx (.sql .commit)) (.ok ⟨[], 0⟩) c₅ h (.discard _ rfl (Or.inl rfl))
  have h := run_first (.tx .releaseActive) () c₅ h .release
  have h := run_second (.tx .releaseActive) () c₅ h .release
  rcases hlaw [7] _ _ _ h (appendByte 1) (appendByte 2) _ _ rfl rfl with heq | heq
  · exact absurd heq (by decide)
  · exact absurd heq (by decide)

/-- The law fails at the default level, and at the others where the write was refused. -/
theorem not_noLostUpdate :
    ¬NoLostUpdate (.withLevel .readCommitted) ∧ ¬NoLostUpdate (.withLevel .repeatableRead) :=
  ⟨not_noLostUpdate_readCommitted, not_noLostUpdate_repeatableRead⟩

end SurrealPg
