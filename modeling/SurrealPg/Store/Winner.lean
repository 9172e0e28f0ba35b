import SurrealPg.Semantics.Typestate
import SurrealPg.Store.Cluster

/-!
# One winner

Any number of transactions of one store try to take the same row out of the same state: all of them
write it if it still holds the value they expect, or all of them insert it if it is absent. However
their statements interleave, whichever of them commit and whichever cancel, at most one is told that
both its write and its commit succeeded, and what it wrote is what the row holds.

Every write that hits takes the row out of the state all the others wait for, and a row has one
unfinished writer. So the row is as it was, or one transaction has committed and nobody can hit any
more.
-/

namespace SurrealPg

open Postgres Semantics

/-! ## The contestants -/

/-- A conditional operation. -/
inductive CondOp
  | put (val : Val)
  | putc (val : Val) (chk : Option Val)
  | delc (chk : Option Val)

namespace CondOp

def run (tx : PgTransaction) (key : Key) : CondOp → Async (Result Unit)
  | put val => tx.put key val
  | putc val chk => tx.putc key val chk
  | delc chk => tx.delc key chk

/-- The operation takes the row out of the state `old`: a `putc` or `delc` that expects the value
that is there, or a `put` where there is none. -/
def Admits : Option Val → CondOp → Prop
  | some old, putc val (some expected) => expected = old ∧ val ≠ old
  | some old, delc (some expected) => expected = old
  | none, put _ | none, putc _ none => True
  | _, _ => False

/-- What the operation makes of the row. -/
def target : CondOp → Option Val
  | put val | putc val _ => some val
  | delc _ => none

/-- The statement it sends. -/
def stmt (key : Key) : CondOp → Stmt
  | put val | putc val none => .put key val
  | putc val (some expected) => .putc key val expected
  | delc (some expected) => .delc key expected
  | delc none => .del key

variable {old : Option Val} {op : CondOp}

theorem Admits.target_ne (h : op.Admits old) : op.target ≠ old := by
  intro heq
  cases op with
  | put val =>
    cases old with
    | none => exact nomatch heq
    | some o => exact h
  | putc val chk =>
    cases old with
    | none => exact nomatch heq
    | some o =>
      cases chk with
      | none => exact h
      | some expected => exact h.2 (Option.some.inj heq)
  | delc chk =>
    cases old with
    | none => cases chk <;> exact h
    | some o => exact nomatch heq

theorem Admits.access (h : op.Admits old) (key : Key) :
    ∃ w, (op.stmt key).access = some (key, .write w) ∧
      ∀ row x, w.effect row = some x ↔ row = old ∧ op.target = x := by
  cases op with
  | put val =>
    cases old with
    | none => exact ⟨_, rfl, fun _ _ ↦ Stmt.effect_insert_iff⟩
    | some o => exact h.elim
  | putc val chk =>
    cases old with
    | none =>
      cases chk with
      | none => exact ⟨_, rfl, fun _ _ ↦ Stmt.effect_insert_iff⟩
      | some expected => exact h.elim
    | some o =>
      cases chk with
      | none => exact h.elim
      | some expected =>
        obtain ⟨rfl, -⟩ := h
        exact ⟨_, rfl, fun _ _ ↦ Stmt.effect_update_iff⟩
  | delc chk =>
    cases old with
    | none => cases chk <;> exact h.elim
    | some o =>
      cases chk with
      | none => exact h.elim
      | some expected =>
        obtain rfl : expected = o := h
        exact ⟨_, rfl, fun _ _ ↦ Stmt.effect_delete_iff⟩

end CondOp

/-- A transaction that runs one operation on the contested row and then commits or cancels. -/
structure Bid (old : Option Val) where
  op : CondOp
  admits : op.Admits old
  /-- Whether it commits, by what the operation returned. -/
  keep : Result Unit → Bool

/-- What the owner of a transaction is told. -/
inductive BidResult
  /-- `begin` failed. -/
  | stopped (e : PgStoreError)
  /-- What the operation returned, and `commit`, if it was called. -/
  | ended (op : Result Unit) (commit : Option (Result Unit))

/-- `begin(true)`, the operation, and `commit()` or `cancel()`. -/
def Bid.run {old : Option Val} (s : PgStore) (key : Key) (b : Bid old) : DbAsync BidResult := do
  match ← opened s with
  | .error e => return .stopped e
  | .ok tx => do
    let r ← onTx (b.op.run tx key)
    if b.keep r then do
      let c ← onTx tx.commit
      return .ended r (some c.1)
    else do
      let _ ← onTx tx.cancel
      return .ended r none

/-! ## Their phases -/

/-- Where a transaction is after its operation. -/
inductive BidPhase
  | tried (hit : Bool)
  | closed (hit committed : Bool)

namespace BidPhase

/-- A reply that says that a row was written. -/
def isHit : Except SqlxError Reply → Bool
  | .ok p => p.rowsAffected != 0
  | .error _ => false

/-- No row is an error of the operation. -/
theorem isHit_ok (p : Reply) (e : PgStoreError) :
    isHit (.ok p) = (if p.rowsAffected = 0 then .error e else .ok () : Result Unit).isOk := by
  rw [isHit]
  split_ifs with h
  · rw [h]
    rfl
  · exact bne_iff_ne.mpr h

theorem isHit_reply (stmt : Stmt) (hit : Bool) :
    isHit (.ok (stmt.reply (.affected hit))) = hit := by
  rw [Stmt.reply_affected]
  cases hit <;> rfl

def May (stmt : Stmt) : Option BidPhase → Request → Prop
  | none, q => q = .sql (.run (.data stmt))
  | some (tried _), q => q = .sql .commit ∨ q = .sql .rollback
  | some (closed _ _), q => q = .releaseActive

def next : Option BidPhase → (q : Request) → q.Answer → Option BidPhase
  | none, .sql (.run _) => fun r ↦ some (tried (isHit r))
  | some (tried hit), .sql .commit => fun r ↦ some (closed hit r.isOk)
  | some (tried hit), .sql .rollback => fun _ ↦ some (closed hit false)
  | some (closed hit committed), .releaseActive => fun _ ↦ some (closed hit committed)
  | _, _ => fun _ ↦ none

end BidPhase

/-- A transaction that was told something has closed, and its phase knows what it was told. -/
def BidResult.Ends (x : Course BidPhase) (a : BidResult) : Prop :=
  ∀ op commit, a = .ended op commit →
    ∃ committed, x = .under (.closed op.isOk committed) ∧
      (committed = true ↔ ∃ r, commit = some r ∧ r.isOk = true)

def bidding (s : PgStore) (key : Key) (old : Option Val) :
    Typestate (Bid old) DbReq DbReq.Answer Unit BidResult (Course BidPhase) where
  start _ := .opening .outside
  may b := Course.May s (BidPhase.May (b.op.stmt key))
  next := Course.next BidPhase.next
  ends _ := BidResult.Ends

/-- A conditional statement is sent, and a reply without a row is an error. -/
theorem query_follows {s : PgStore} (stmt : Stmt) (key : Key) (e : PgStoreError) (conn : TxConn) :
    (onTx (PgTransaction.query ⟨some conn, true, 0, []⟩ stmt (some key) fun p ↦
        if p.rowsAffected = 0 then .error e else .ok ())).Follows
      (Course.May s (BidPhase.May stmt)) (Course.next BidPhase.next)
      (fun x r ↦ x = .under (.tried r.isOk)) (.opening .counted) := by
  refine ⟨⟨rfl, rfl⟩, fun r x hx ↦ ?_⟩
  obtain rfl := Option.some.inj hx
  rcases r with err | p
  · rfl
  · change Course.under (BidPhase.tried (BidPhase.isHit (.ok p))) = _
    rw [BidPhase.isHit_ok p e]

theorem CondOp.Admits.run_follows {s : PgStore} {old : Option Val} {op : CondOp}
    (h : op.Admits old) (key : Key) (conn : TxConn) :
    (onTx (op.run ⟨some conn, true, 0, []⟩ key)).Follows
      (Course.May s (BidPhase.May (op.stmt key))) (Course.next BidPhase.next)
      (fun x r ↦ x = .under (.tried r.isOk)) (.opening .counted) := by
  cases op with
  | put val => exact query_follows _ key (.keyAlreadyExists key) conn
  | putc val chk =>
    cases chk with
    | none => exact query_follows _ key (.keyAlreadyExists key) conn
    | some expected => exact query_follows _ key (.conditionNotMet key) conn
  | delc chk =>
    cases chk with
    | none => cases old <;> exact h.elim
    | some expected => exact query_follows _ key (.conditionNotMet key) conn

section

variable {s : PgStore} {old : Option Val} {b : Bid old} {key : Key} {r : Result Unit}

theorem follows_commit (conn : TxConn) :
    (onTx (PgTransaction.commit ⟨some conn, true, 0, []⟩) >>= fun c ↦
      (return .ended r (some c.1) : DbAsync BidResult)).Follows
      ((bidding s key old).may b) (bidding s key old).next ((bidding s key old).ends b)
      (.under (.tried r.isOk)) := by
  refine Dialogue.Follows.bind
    (Course.follows_close PgTransaction.endsBy_commitInner rfl (Or.inl rfl) fun c y hy ↦ ?_)
    fun y c h ↦ h
  obtain rfl := Option.some.inj hy
  refine ⟨rfl, fun z hz result hc ↦ ?_⟩
  obtain rfl := Option.some.inj hz
  rintro op commit heq
  obtain ⟨rfl, rfl⟩ := BidResult.ended.inj heq
  refine ⟨c.isOk, rfl, ?_⟩
  simp [hc]

theorem follows_cancel (conn : TxConn) :
    (onTx (PgTransaction.cancel ⟨some conn, true, 0, []⟩) >>= fun _ ↦
      (return .ended r none : DbAsync BidResult)).Follows
      ((bidding s key old).may b) (bidding s key old).next ((bidding s key old).ends b)
      (.under (.tried r.isOk)) := by
  refine Dialogue.Follows.bind
    (Course.follows_close PgTransaction.endsBy_cancelInner rfl (Or.inr rfl) fun c y hy ↦ ?_)
    fun y _ h ↦ h
  obtain rfl := Option.some.inj hy
  refine ⟨rfl, fun z hz _ _ ↦ ?_⟩
  obtain rfl := Option.some.inj hz
  rintro op commit heq
  obtain ⟨rfl, rfl⟩ := BidResult.ended.inj heq
  exact ⟨false, rfl, by simp⟩

end

theorem Bid.run_follows {old : Option Val} (s : PgStore) (key : Key) (b : Bid old) :
    (b.run s key).Follows ((bidding s key old).may b) (bidding s key old).next
      ((bidding s key old).ends b) ((bidding s key old).start b) := by
  refine Course.follows_opened (fun conn ↦ ?_) fun e φ ↦ ?_
  · refine (b.admits.run_follows key conn).bind ?_
    rintro x r rfl
    split_ifs
    · exact follows_commit conn
    · exact follows_cancel conn
  · exact fun op commit heq ↦ nomatch heq

/-! ## What every contest keeps -/

section

variable {ι : Type} {s : PgStore} {key : Key} {old : Option Val}

/-- What is known of the transaction of a bid. -/
def Standing (s : PgStore) (key : Key) (c : Cluster ι Key Val) (i : ι) (b : Bid old) :
    Course BidPhase → Prop
  | .opening φ => Opening s c i φ
  | .under (.tried true) =>
    ∃ t, c.txn i = some t ∧ t.aborted = false ∧ t.own key = some b.op.target
  | .under (.tried false) => ∃ t, c.txn i = some t ∧ t.own key = none
  | .under (.closed _ _) => c.txn i = none

/-- Nobody has won: the row is as it was. -/
def Undecided (key : Key) (c : Cluster ι Key Val) (ph : Phases ι (Bid old) (Course BidPhase)) :
    Prop :=
  c.rows key = old ∧ ∀ i b, ph i ≠ some (.live b (.under (.closed true true)))

/-- Bid `w` has won: the row is what it made of it, and no other can win. -/
def Decided (key : Key) (c : Cluster ι Key Val) (ph : Phases ι (Bid old) (Course BidPhase))
    (w : ι) : Prop :=
  (∃ b fin, ph w = some (.live b (.under (.closed true fin))) ∧ c.rows key = b.op.target) ∧
    (∀ i b, ph i = some (.live b (.under (.closed true true))) → i = w) ∧
      ∀ i b, ph i ≠ some (.live b (.under (.tried true)))

/-- What every contest keeps. -/
structure Contest (s : PgStore) (key : Key) (old : Option Val) (c : Cluster ι Key Val)
    (ph : Phases ι (Bid old) (Course BidPhase)) : Prop where
  wellFormed : c.WellFormed
  uncalled : ∀ i, ph i = none → c.txn i = none
  standing : ∀ i b x, ph i = some (.live b x) → Standing s key c i b x
  row : Undecided key c ph ∨ ∃ w, Decided key c ph w

variable [DecidableEq ι] {c c' : Cluster ι Key Val} {ph : Phases ι (Bid old) (Course BidPhase)}
  {i : ι} {b : Bid old} {x x' : Course BidPhase}

omit [DecidableEq ι] in
theorem Standing.congr {j : ι} (h : Standing s key c j b x) (hc : c'.txn j = c.txn j) :
    Standing s key c' j b x := by
  rcases x with φ | (hit | _)
  · rw [Standing, Opening, hc]
    exact h
  · cases hit with
    | true =>
      rw [Standing, hc]
      exact h
    | false =>
      rw [Standing, hc]
      exact h
  · rw [Standing, hc]
    exact h

theorem Contest.advance (h : Contest s key old c ph) (hwell : c'.WellFormed)
    (hother : ∀ j, j ≠ i → c'.txn j = c.txn j) (hx : Standing s key c' i b x')
    (hrow : Undecided key c' (Function.update ph i (some (.live b x'))) ∨
      ∃ w, Decided key c' (Function.update ph i (some (.live b x'))) w) :
    Contest s key old c' (Function.update ph i (some (.live b x'))) where
  wellFormed := hwell
  uncalled j hj := by
    obtain ⟨hji, hj⟩ := update_eq_none hj
    rw [hother j hji]
    exact h.uncalled j hj
  standing j b' y hj := by
    rcases update_eq_live hj with ⟨rfl, rfl, rfl⟩ | ⟨hji, hj⟩
    · exact hx
    · exact (h.standing j b' y hj).congr (hother j hji)
  row := hrow

/-- A step that neither hits nor closes a bid that has hit leaves the row and its winner alone. -/
theorem Contest.row_of_quiet (h : Contest s key old c ph)
    (hi : ∀ b' fin, ph i ≠ some (.live b' (.under (.closed true fin))))
    (hrows : c'.rows key = c.rows key) (hhit : x' ≠ .under (.tried true))
    (hwon : x' ≠ .under (.closed true true)) :
    Undecided key c' (Function.update ph i (some (.live b x'))) ∨
      ∃ w, Decided key c' (Function.update ph i (some (.live b x'))) w := by
  -- the new phase is none of those the row depends on
  have hold : ∀ {j b' y}, (y = .under (.tried true) ∨ y = .under (.closed true true)) →
      Function.update ph i (some (.live b x')) j = some (.live b' y) →
        ph j = some (.live b' y) := by
    intro j b' y hy hj
    rcases update_eq_live hj with ⟨-, -, rfl⟩ | ⟨-, hj⟩
    · rcases hy with hy | hy
      · exact absurd hy hhit
      · exact absurd hy hwon
    · exact hj
  rcases h.row with ⟨hrow, hnone⟩ | ⟨w, ⟨b', fin, hw, hrow⟩, hone, hnone⟩
  · refine Or.inl ⟨hrows.trans hrow, fun j b' hj ↦ ?_⟩
    exact hnone j b' (hold (Or.inr rfl) hj)
  · have hwi : w ≠ i := by
      rintro rfl
      exact hi b' fin hw
    refine Or.inr ⟨w, ⟨b', fin, ?_, hrows.trans hrow⟩, fun j b' hj ↦ ?_, fun j b' hj ↦ ?_⟩
    · rw [Function.update_of_ne hwi]
      exact hw
    · exact hone j b' (hold (Or.inr rfl) hj)
    · exact hnone j b' (hold (Or.inl rfl) hj)

omit [DecidableEq ι] in
theorem ne_closed (hi : ph i = some (.live b x)) (hx : ∀ fin, x ≠ .under (.closed true fin)) :
    ∀ b' fin, ph i ≠ some (.live b' (.under (.closed true fin))) := by
  intro b' fin heq
  rw [hi] at heq
  exact hx fin (Task.live.inj (Option.some.inj heq)).2

/-- **The operation.** It hits only while nobody has won, and only a row nobody else has written. -/
theorem Contest.operate {r : Except SqlxError Reply} (h : Contest s key old c ph)
    (hi : ph i = some (.live b (.opening .counted)))
    (hans : Answers i c (.tx (.sql (.run (.data (b.op.stmt key))))) r c') :
    Contest s key old c'
      (Function.update ph i (some (.live b (.under (.tried (BidPhase.isHit r)))))) := by
  have hbegun : c.txn i = some (.begin s.isolationLevel.level) := h.standing i b _ hi
  obtain ⟨w, haccess, heffect⟩ := b.admits.access key
  have hgo : ∀ x', Standing s key c' i b x' →
      (Undecided key c' (Function.update ph i (some (.live b x'))) ∨
        ∃ w, Decided key c' (Function.update ph i (some (.live b x'))) w) →
      Contest s key old c' (Function.update ph i (some (.live b x'))) :=
    fun _ hx hrow ↦ h.advance (hans.wellFormed h.wellFormed) (fun _ ↦ hans.txn_of_ne) hx hrow
  have hopen := ne_closed hi nofun
  have hmiss : ∀ t, c'.txn i = some t → t.own key = none → c'.rows = c.rows →
      Contest s key old c' (Function.update ph i (some (.live b (.under (.tried false))))) := by
    intro t ht hown hrows
    exact hgo _ ⟨t, ht, hown⟩
      (h.row_of_quiet hopen (congrFun hrows key) nofun nofun)
  cases hans with
  | refuse _ e ht =>
    obtain rfl := Option.some.inj (hbegun.symm.trans ht)
    exact hmiss _ Cluster.put_txn_self rfl rfl
  | run ht hrun hacc hexec =>
    obtain rfl := Option.some.inj (hbegun.symm.trans ht)
    obtain ⟨rfl, rfl⟩ := Prod.mk.inj (Option.some.inj (haccess.symm.trans hacc))
    cases hexec with
    | skip | keep =>
      rw [BidPhase.isHit_reply]
      exact hmiss _ Cluster.put_txn_self (by rw [Cluster.pin_own]; rfl) rfl
    | @hit _ x hfree hover heff =>
      rw [BidPhase.isHit_reply]
      obtain ⟨hold, rfl⟩ := (heffect _ x).mp heff
      have hrow : c.rows key = old := hold
      have hcur : Standing s key (c.put i ((c.pin (.begin s.isolationLevel.level)).record key
          b.op.target)) i b (.under (.tried true)) := by
        refine ⟨_, Cluster.put_txn_self, ?_, Txn.record_own_self ..⟩
        exact Cluster.pin_aborted
      apply hgo _ hcur
      rcases h.row with ⟨-, hnone⟩ | ⟨w, ⟨b', fin, -, hw⟩, -⟩
      · refine Or.inl ⟨hrow, fun j b' hj ↦ ?_⟩
        rcases update_eq_live hj with ⟨-, -, heq⟩ | ⟨-, hj⟩
        · exact nomatch heq
        · exact hnone j b' hj
      · -- the winner has left another row
        exact absurd (hw.symm.trans hrow) b'.admits.target_ne

/-- **The end.** A commit of a bid that has hit decides the contest, which nobody has won before. -/
theorem Contest.close {q : Request} {r : q.Answer} {hit fin : Bool} (h : Contest s key old c ph)
    (hi : ph i = some (.live b (.under (.tried hit)))) (hans : Answers i c (.tx q) r c')
    (hnone : c'.txn i = none)
    (hrows : c'.rows key = c.rows key ∧ (hit = true → fin = false) ∨
      ∃ t, c.txn i = some t ∧ c' = c.commit i t) :
    Contest s key old c' (Function.update ph i (some (.live b (.under (.closed hit fin))))) := by
  have hstanding := h.standing i b _ hi
  have hopen := ne_closed hi nofun
  have hclosed : Standing s key c' i b (.under (.closed hit fin)) := hnone
  apply h.advance (hans.wellFormed h.wellFormed) (fun _ ↦ hans.txn_of_ne) hclosed
  cases hit with
  | false =>
    refine h.row_of_quiet hopen ?_ nofun nofun
    rcases hrows with ⟨hrows, -⟩ | ⟨t, ht, rfl⟩
    · exact hrows
    · obtain ⟨t', ht', hown⟩ := hstanding
      obtain rfl := Option.some.inj (ht.symm.trans ht')
      exact Cluster.commit_rows_of_none hown
  | true =>
    rcases hrows with ⟨hrows, hfin⟩ | ⟨t, ht, rfl⟩
    · rw [hfin rfl]
      exact h.row_of_quiet hopen hrows nofun nofun
    · obtain ⟨t', ht', -, hown⟩ := hstanding
      obtain rfl := Option.some.inj (ht.symm.trans ht')
      rcases h.row with ⟨-, hnobody⟩ | ⟨w, -, -, hnobody⟩
      · have hrow := Cluster.commit_rows_of_own (c := c) (i := i) hown
        refine Or.inr ⟨i, ⟨b, fin, Function.update_self .., hrow⟩, ?_, ?_⟩
        · intro j b' hj
          by_contra hji
          rw [Function.update_of_ne hji] at hj
          exact hnobody j b' hj
        · intro j b' hj
          rcases update_eq_live hj with ⟨-, -, heq⟩ | ⟨hji, hj⟩
          · exact nomatch heq
          · -- two unfinished transactions have not both written the row
            obtain ⟨u, hu, -, hown'⟩ := h.standing j b' _ hj
            have hfree := h.wellFormed.exclusive ht (by rw [hown]; exact Option.some_ne_none _)
            rw [hfree j u hji hu] at hown'
            exact nomatch hown'
      · exact absurd hi (hnobody i b)

theorem Contest.answer {q : DbReq} {u : Option Unit} {r : q.Answer} (h : Contest s key old c ph)
    (hi : ph i = some (.live b x)) (hmay : (bidding s key old).may b x q u)
    (hans : Answers i c q r c') :
    ∃ x', (bidding s key old).next x q r = some x' ∧
      Contest s key old c' (Function.update ph i (some (.live b x'))) := by
  rcases x with φ | (hit | ⟨hit, fin⟩)
  · cases q with
    | store q =>
      obtain ⟨u, hphase, hsends⟩ := hmay
      obtain ⟨φ', hφ', hopening⟩ := hans.opening hphase hsends (h.standing i b _ hi)
      have hrows := hans.rows_eq nofun
      have hx : Standing s key c' i b (.opening φ') := hopening
      refine ⟨.opening φ', congrArg (Option.map Course.opening) hφ', ?_⟩
      apply h.advance (hans.wellFormed h.wellFormed) (fun _ ↦ hans.txn_of_ne) hx
      exact h.row_of_quiet (ne_closed hi nofun) (congrFun hrows key) nofun nofun
    | tx q =>
      obtain ⟨rfl, rfl⟩ := hmay
      exact ⟨_, rfl, h.operate hi hans⟩
  · cases q with
    | store q => exact hmay.elim
    | tx q =>
      rcases hmay with rfl | rfl
      · refine ⟨.under (.closed hit (Except.isOk r)), rfl, ?_⟩
        cases hans with
        | commit _ ht hrun =>
          exact h.close hi (.commit r ht hrun) Cluster.commit_txn_self (Or.inr ⟨_, ht, rfl⟩)
        | discard _ ht hlost =>
          refine h.close hi (.discard r ht hlost) Cluster.rollback_txn_self (Or.inl ⟨rfl, ?_⟩)
          rintro rfl
          -- a transaction that has hit is not aborted, so its COMMIT was refused
          obtain ⟨t, ht', hrun, -⟩ := h.standing i b _ hi
          obtain rfl := Option.some.inj (ht.symm.trans ht')
          rcases hlost with hab | hrefused
          · rw [hrun] at hab
            exact absurd hab Bool.false_ne_true
          · exact hrefused
      · refine ⟨.under (.closed hit false), rfl, ?_⟩
        cases hans with
        | rollback =>
          exact h.close hi (.rollback r) Cluster.rollback_txn_self (Or.inl ⟨rfl, fun _ ↦ rfl⟩)
  · cases q with
    | store q => exact hmay.elim
    | tx q =>
      obtain rfl : q = .releaseActive := hmay
      refine ⟨.under (.closed hit fin), rfl, ?_⟩
      rw [← hi, Function.update_eq_self]
      cases hans with
      | release => exact h

theorem contest_keeps (ι : Type) [DecidableEq ι] (s : PgStore) (key : Key) (old : Option Val) :
    (bidding s key old).Keeps (server (ι := ι)) fun _ c ph ↦ Contest s key old c ph where
  call := by
    intro tr c ph i b h hi
    have hnew : Standing s key c i b (.opening .outside) := h.uncalled i hi
    apply h.advance h.wellFormed (fun _ _ ↦ rfl) hnew
    refine h.row_of_quiet (fun b' fin heq ↦ ?_) rfl nofun nofun
    rw [hi] at heq
    exact nomatch heq
  answer := fun h hi hmay hans ↦ h.answer hi hmay hans
  abandon := fun _ _ _ hun ↦ hun.elim

end

/-! ## The result -/

/-- The bids made so far, on the server they run on. -/
abbrev BidPool (ι : Type) (old : Option Val) :=
  Pool ι (Bid old) DbReq DbReq.Answer Unit BidResult (Cluster ι Key Val)

/-- A new bid, or a statement of one of them. -/
abbrev BidStep (ι : Type) [DecidableEq ι] (s : PgStore) (key : Key) (old : Option Val) :
    BidPool ι old → PoolEvent ι (Bid old) DbReq DbReq.Answer → BidPool ι old → Prop :=
  Pool.Step server (Bid.run s key)

/-- Transaction `i` was told that its operation and its commit succeeded. -/
def Won {ι : Type} {old : Option Val} (p : BidPool ι old) (i : ι) (b : Bid old) : Prop :=
  p.Returned i b (.ended (.ok ()) (some (.ok ())))

/-- **At most one winner of a conditional write**, and the row is what it made of it. -/
theorem one_winner {ι : Type} [DecidableEq ι] {s : PgStore} {key : Key} {old : Option Val}
    {rows : Key → Option Val} {tr : List (PoolEvent ι (Bid old) DbReq DbReq.Answer)}
    {p : BidPool ι old} (hold : rows key = old)
    (hrun : Run (BidStep ι s key old) (.start (.quiet rows)) tr p) :
    (∀ i j b b', Won p i b → Won p j b' → i = j) ∧
      ∀ i b, Won p i b → p.mem.rows key = b.op.target := by
  have h₀ : Contest s key old (.quiet rows : Cluster ι Key Val) fun _ ↦ none :=
    ⟨Cluster.wellFormed_quiet rows, fun _ _ ↦ rfl, nofun, Or.inl ⟨hold, nofun⟩⟩
  obtain ⟨ph, h, hfollows⟩ :=
    (contest_keeps ι s key old).run (fun b ↦ b.run_follows s key) h₀ hrun
  -- who is told so has closed after a hit
  have hclosed : ∀ i b, Won p i b → ph i = some (.live b (.under (.closed true true))) := by
    intro i b hwon
    obtain ⟨x, hx, hends⟩ := hfollows.live hwon
    obtain ⟨fin, rfl, hfin⟩ := hends _ _ rfl
    obtain rfl : fin = true := hfin.mpr ⟨_, rfl, rfl⟩
    exact hx
  rcases h.row with ⟨-, hnobody⟩ | ⟨w, ⟨b', fin, hw, hrow⟩, hone, -⟩
  · exact ⟨fun i j b b' hi ↦ absurd (hclosed i b hi) (hnobody i b),
      fun i b hi ↦ absurd (hclosed i b hi) (hnobody i b)⟩
  · refine ⟨fun i j b b' hi hj ↦ ?_, fun i b hi ↦ ?_⟩
    · exact (hone i b (hclosed i b hi)).trans (hone j b' (hclosed j b' hj)).symm
    · obtain rfl := hone i b (hclosed i b hi)
      rw [hclosed i b hi] at hw
      obtain ⟨rfl, -⟩ := Task.live.inj (Option.some.inj hw)
      exact hrow

/-- Two transactions race to insert a row, both commit, and the one whose statement came second is
told so. -/
theorem one_winner_race :
    ∃ tr p, Run (BidStep Bool (.withLevel .readCommitted) [1] none) (.start (.quiet fun _ ↦ none))
        tr p ∧
      p.mem.rows [1] = some [5] ∧ ∀ j b, Won p j b → j = true := by
  let first : Bid none := ⟨.put [5], trivial, fun _ ↦ true⟩
  let second : Bid none := ⟨.putc [6] none, trivial, fun _ ↦ true⟩
  have h : Run (BidStep Bool (.withLevel .readCommitted) [1] none) (.start (.quiet fun _ ↦ none)) []
      (.start (.quiet fun _ ↦ none)) := .nil
  obtain ⟨tr, h⟩ := run_opened h true first rfl rfl
  obtain ⟨tr, h⟩ := run_opened h false second rfl rfl
  have h := h.answered true (.tx (.sql (.run (.data (.put [1] [5]))))) _ _ rfl
    (.run rfl rfl rfl (.hit (free_of_other fun t ht ↦ Option.some.inj ht ▸ rfl) nofun rfl))
  have h := h.answered true (.tx (.sql .commit)) (.ok ⟨[], 0⟩) _ rfl (.commit _ rfl rfl)
  have h := h.answered true (.tx .releaseActive) () _ rfl .release
  have h := h.answered false (.tx (.sql (.run (.data (.put [1] [6]))))) _ _ rfl
    (.run rfl rfl rfl (.keep (free_of_other nofun) nofun rfl))
  have h := h.answered false (.tx (.sql .commit)) (.ok ⟨[], 0⟩) _ rfl (.commit _ rfl rfl)
  have h := h.answered false (.tx .releaseActive) () _ rfl .release
  have habsent : (fun _ ↦ none : Key → Option Val) [1] = none := rfl
  obtain ⟨hone, hrow⟩ := one_winner habsent h
  exact ⟨_, _, h, hrow true first rfl, fun j b hj ↦ hone j true b first hj rfl⟩

end SurrealPg
