import SurrealPg.Transaction.Outcome

/-!
# The stack of savepoints

A transaction keeps the names of its savepoints on a stack of its own, and repairs it whenever the
server refuses a statement. Whatever is refused, and in whatever state that leaves the block, the
stack is the server's list of active savepoints after every call. So the name on top always means
the most recent savepoint, also where the counter of names has wrapped around and an older
savepoint has the same name, and rolling back to it restores what it was made to keep.
-/

namespace SurrealPg

open Postgres Semantics

namespace Client

/-- A transaction just begun on the committed contents `d`. -/
def begun (conn : TxConn) (write : Bool) (d : Database) : Client where
  tx := ⟨some conn, write, 0, []⟩
  wire := ⟨.inBlock (Block.begin d), 0⟩

/-- What the transaction sees. -/
def contents (c : Client) : Database :=
  match c.wire.session with
  | .inBlock b => b.cur
  | .idle d => d

/-- The savepoints active at the server, most recent first. -/
def serverSavepoints (c : Client) : List String :=
  match c.wire.session with
  | .inBlock b => b.marks.map Prod.fst
  | .idle _ => []

/-- What a caller remembers: the contents at each `new_save_point` that returned `Ok` and that no
release or rollback that returned `Ok` has matched since, the last one first. -/
def remember (saved : List Database) (c : Client) : Op → Result Answer → List Database
  | .newSavePoint, .ok _ => c.contents :: saved
  | .releaseLastSavePoint, .ok _ | .rollbackToSavePoint, .ok _ => saved.tail
  | _, _ => saved

variable (faults : ℕ → Option SqlxError)

def remembering (s : Client × List Database) (op : Op) : Client × List Database :=
  ((s.1.perform faults op).2, remember s.2 s.1 op (s.1.perform faults op).1)

/-- Perform operations one after another on a transaction just begun on `d`. -/
def performRemembering (conn : TxConn) (write : Bool) (d : Database) (ops : List Op) :
    Client × List Database :=
  ops.foldl (remembering faults) (begun conn write d, [])

end Client

/-- The law of savepoints, for the state after some calls. -/
structure SavepointsMirrored (faults : ℕ → Option SqlxError) (s : Client × List Database) :
    Prop where
  names : s.1.tx.savepoints = s.1.serverSavepoints
  /-- A rollback restores the contents of the matching `new_save_point`. -/
  rollback : ∀ a, s.1.tx.savepoints ≠ [] → (s.1.perform faults .rollbackToSavePoint).1 = .ok a →
    s.2.head? = some (s.1.perform faults .rollbackToSavePoint).2.contents
  release : ∀ a, (s.1.perform faults .releaseLastSavePoint).1 = .ok a →
    (s.1.perform faults .releaseLastSavePoint).2.contents = s.1.contents
  /-- On an empty stack neither does anything. -/
  empty : s.1.tx.savepoints = [] →
    s.1.perform faults .rollbackToSavePoint = (.ok .unit, s.1) ∧
      s.1.perform faults .releaseLastSavePoint = (.ok .unit, s.1)

section

variable {faults : ℕ → Option SqlxError} {tx : PgTransaction} {conn : TxConn} {w : Wire}
  {b : Block Database}

/-! ## Key-value operations leave the savepoints alone -/

variable (faults) in
theorem Op.run_readOnly (hconn : tx.conn = some conn) (hwr : tx.writeable = false)
    (hw : w.session = .inBlock b) {op : Op} (hop : op.isSavepoint = false) :
    ∃ r w' b', (op.run tx).eval (Wire.answer faults) w = ((r, tx), w') ∧
      w'.session = .inBlock b' ∧ Outcome id b r b' := by
  have hcheck : tx.checkWriteable = .error .txReadOnly := by
    rw [PgTransaction.checkWriteable, hwr]
    rfl
  have hrefused : Ends faults w b id (pure (.error .txReadOnly) : Async (Result Unit)) :=
    ⟨_, _, _, rfl, hw, .unmet _ b.cur rfl⟩
  cases op with
  | «exists» | get | countApprox => exact keeping_ends _ (PgTransaction.ends_select rfl hconn hw)
  | getm ks => exact keeping_ends _ (PgTransaction.ends_getm hconn hw ks)
  | set | put | del =>
    refine keeping_ends _ ?_
    simp only [PgTransaction.set, PgTransaction.put, PgTransaction.del, PgTransaction.writeQuery,
      hcheck]
    exact hrefused
  | setm =>
    refine keeping_ends _ ?_
    rw [PgTransaction.setm, hconn, hcheck]
    exact hrefused
  | putc | delc | delr =>
    refine keeping_ends _ ?_
    simp only [PgTransaction.putc, PgTransaction.delc, PgTransaction.delr, hcheck]
    exact hrefused
  | keys | keysr | scan | scanr =>
    exact keeping_ends _ (PgTransaction.ends_rangeQueryOffset _ _ rfl hconn hw)
  | getr start stop => exact keeping_ends _ (PgTransaction.ends_getr hconn hw start stop)
  | count start stop => exact keeping_ends _ (PgTransaction.ends_count hconn hw start stop)
  | newSavePoint | releaseLastSavePoint | rollbackToSavePoint =>
    exact absurd hop Bool.true_eq_false.mp

theorem Outcome.marks_eq {α : Type} {f : Table Key Val → Table Key Val} {b' : Block Database}
    {r : Result α} (h : Outcome f b r b') : b'.marks = b.marks := by
  cases h <;> rfl

variable (faults) in
theorem Op.run_marks (hconn : tx.conn = some conn) (hw : w.session = .inBlock b) {op : Op}
    (hop : op.isSavepoint = false) :
    ∃ r w' b', (op.run tx).eval (Wire.answer faults) w = ((r, tx), w') ∧
      w'.session = .inBlock b' ∧ b'.marks = b.marks := by
  cases hwr : tx.writeable with
  | true =>
    obtain ⟨r, w', b', hev, hs, hout⟩ := Op.run_cases faults hconn hwr hw hop
    exact ⟨r, w', b', hev, hs, hout.marks_eq⟩
  | false =>
    obtain ⟨r, w', b', hev, hs, hout⟩ := Op.run_readOnly faults hconn hwr hw hop
    exact ⟨r, w', b', hev, hs, hout.marks_eq⟩

/-! ## The invariant -/

/-- The stack has the names of the server's savepoints, and the caller remembers what each of them
keeps. -/
def Mirrored (conn : TxConn) (s : Client × List Database) : Prop :=
  s.1.tx.conn = some conn ∧ ∃ b, s.1.wire.session = .inBlock b ∧
    b.marks.map Prod.fst = s.1.tx.savepoints ∧ b.marks.map Prod.snd = s.2

theorem Client.remember_of_not_isSavepoint {saved : List Database} {c : Client} {op : Op}
    {r : Result Answer} (hop : op.isSavepoint = false) : Client.remember saved c op r = saved := by
  cases op <;> first | rfl | exact absurd hop Bool.true_eq_false.mp

/-- **Every call** keeps the stack and the server's savepoints equal, whatever is refused. -/
theorem Mirrored.remembering {s : Client × List Database} (h : Mirrored conn s) (op : Op) :
    Mirrored conn (Client.remembering faults s op) := by
  obtain ⟨⟨tx, w⟩, saved⟩ := s
  obtain ⟨hconn, b, hw, hnames, hsaved⟩ := h
  have hcontents : (Client.mk tx w).contents = b.cur := by rw [Client.contents, hw]
  cases hop : op.isSavepoint with
  | false =>
    obtain ⟨r, w', b', hev, hs, hmarks⟩ := Op.run_marks faults hconn hw hop
    rw [Client.remembering, Client.perform, hev, Client.remember_of_not_isSavepoint hop]
    exact ⟨hconn, b', hs, hmarks ▸ hnames, hmarks ▸ hsaved⟩
  | true =>
    cases op with
    | newSavePoint =>
      obtain ⟨r, tx', w', b', hev, hs, hconn', -, hcases⟩ :=
        PgTransaction.newSavePoint_cases faults hconn hw
      rw [Client.remembering, Client.perform, Op.run, Dialogue.eval_map, hev]
      refine ⟨hconn', b', hs, ?_⟩
      rcases hcases with ⟨e, rfl, hnames', rfl⟩ | ⟨name, rfl, hnames', -, rfl⟩
      · exact ⟨hnames.trans hnames'.symm, hsaved⟩
      · refine ⟨?_, ?_⟩
        · rw [List.map_cons, hnames, hnames']
        · rw [List.map_cons, hsaved, ← hcontents]
          rfl
    | releaseLastSavePoint =>
      obtain ⟨r, tx', w', b', hev, hs, hconn', -, hcases⟩ :=
        PgTransaction.releaseLastSavePoint_cases faults hconn hw hnames
      rw [Client.remembering, Client.perform, Op.run, Dialogue.eval_map, hev]
      refine ⟨hconn', b', hs, ?_⟩
      rcases hcases with ⟨e, rfl, hnames', rfl⟩ | ⟨rfl, hnames', rfl⟩
      · exact ⟨hnames.trans hnames'.symm, hsaved⟩
      · refine ⟨?_, ?_⟩
        · rw [List.map_tail, hnames, hnames']
        · rw [List.map_tail, hsaved]
          rfl
    | rollbackToSavePoint =>
      obtain ⟨r, tx', w', b', hev, hs, hconn', -, hcases⟩ :=
        PgTransaction.rollbackToSavePoint_cases faults hconn hw hnames
      rw [Client.remembering, Client.perform, Op.run, Dialogue.eval_map, hev]
      refine ⟨hconn', b', hs, ?_⟩
      rcases hcases with ⟨e, d, rfl, hnames', rfl⟩ | ⟨rfl, hnames', rfl⟩
      · exact ⟨hnames.trans hnames'.symm, hsaved⟩
      -- an empty stack stays empty, and any other loses its top
      · have hmarks : (b.marks.head?.elim b fun m ↦
            { b with cur := m.2, marks := b.marks.tail, aborted := false }).marks =
              b.marks.tail := by
          cases hm : b.marks with
          | nil => exact hm
          | cons m marks => rfl
        rw [hmarks]
        refine ⟨?_, ?_⟩
        · rw [List.map_tail, hnames, hnames']
        · rw [List.map_tail, hsaved]
          rfl
    | _ => exact absurd hop.symm Bool.true_eq_false.mp

theorem mirrored_performRemembering (faults : ℕ → Option SqlxError) (conn : TxConn) (write : Bool)
    (d : Database) (ops : List Op) :
    Mirrored conn (Client.performRemembering faults conn write d ops) := by
  suffices ∀ s, Mirrored conn s → Mirrored conn (ops.foldl (Client.remembering faults) s) from
    this _ ⟨rfl, Block.begin d, rfl, rfl, rfl⟩
  induction ops with
  | nil => exact fun s hs ↦ hs
  | cons op ops ih => exact fun s hs ↦ ih _ (hs.remembering op)

theorem Mirrored.savepointsMirrored {s : Client × List Database} (h : Mirrored conn s) :
    SavepointsMirrored faults s := by
  obtain ⟨⟨tx, w⟩, saved⟩ := s
  obtain ⟨hconn, b, hw, hnames, hsaved⟩ := h
  have hcontents : (Client.mk tx w).contents = b.cur := by rw [Client.contents, hw]
  refine ⟨?_, fun a hne ↦ ?_, fun a ↦ ?_, fun hnil ↦ ?_⟩
  · rw [Client.serverSavepoints, hw]
    exact hnames.symm
  · obtain ⟨r, tx', w', b', hev, hs, -, -, hcases⟩ :=
      PgTransaction.rollbackToSavePoint_cases faults hconn hw hnames
    rw [Client.perform, Op.run, Dialogue.eval_map, hev]
    rcases hcases with ⟨e, d, rfl, -, -⟩ | ⟨rfl, -, rfl⟩
    · exact nofun
    · intro _
      rw [Client.contents, hs]
      cases hm : b.marks with
      | nil =>
        rw [hm] at hnames
        exact absurd hnames.symm hne
      | cons m marks =>
        rw [hm] at hsaved
        rw [← hsaved]
        rfl
  · obtain ⟨r, tx', w', b', hev, hs, -, -, hcases⟩ :=
      PgTransaction.releaseLastSavePoint_cases faults hconn hw hnames
    rw [Client.perform, Op.run, Dialogue.eval_map, hev, hcontents]
    rcases hcases with ⟨e, rfl, -, -⟩ | ⟨rfl, -, rfl⟩
    · exact nofun
    · intro _
      rw [Client.contents, hs]
  · obtain ⟨conn', write, counter, names⟩ := tx
    obtain rfl : names = [] := hnil
    exact ⟨rfl, rfl⟩

/-- **The stack of savepoints mirrors the server's**, after any calls and any refusals, and the
calls on savepoints do what they say. -/
theorem savepoints_mirrored (faults : ℕ → Option SqlxError) (conn : TxConn) (write : Bool)
    (d : Database) (ops : List Op) :
    SavepointsMirrored faults (Client.performRemembering faults conn write d ops) :=
  (mirrored_performRemembering faults conn write d ops).savepointsMirrored

end

end SurrealPg
