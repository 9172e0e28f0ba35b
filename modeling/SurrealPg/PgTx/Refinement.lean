import SurrealPg.PgTx.CompareAndSwap
import SurrealPg.PgTx.Protocol
import SurrealPg.Semantics.FiniteMap
import SurrealPg.Semantics.Machine

/-!
# The key-value calls refine an ordered map

A table is a finite map from byte strings to byte strings together with the order of its keys. The
calls of a transaction are compared with what they are meant to do on that map: read or change one
key, remove a range, list a range in either order with a page cut out of it, count it.

Each call sends at most one statement. What the statement does to the table is an equation between
maps, what it returns an equation between lists, and the empty range, which the code answers
without asking the server, has an empty listing. So every call, and by the simulation rule every
run of calls, answers as the map does; a `PgTx` reports the same answers with the number of bytes
in them.
-/

namespace SurrealPg

open Postgres Semantics

/-! ## The reference -/

/-- The calls on keys and ranges that set no condition of their own, at the present version. -/
inductive KvCall
  | «exists» (key : Key)
  | get (key : Key)
  | set (key : Key) (val : Val)
  | put (key : Key) (val : Val)
  | del (key : Key)
  | delr (start stop : Key)
  | clrr (start stop : Key)
  | keys (start stop : Key) (limit skip : UInt32)
  | keysr (start stop : Key) (limit skip : UInt32)
  | scan (start stop : Key) (limit skip : UInt32)
  | scanr (start stop : Key) (limit skip : UInt32)
  | getr (start stop : Key)
  | count (start stop : Key)

/-- What such a call returns. -/
inductive KvAnswer
  | unit
  | bool (b : Bool)
  | val (v : Option Val)
  | keys (ks : List Key)
  | pairs (ps : List (Key × Val))
  | count (n : ℕ)

/-- A map from keys to values. -/
abbrev Contents := FiniteMap Key Val

namespace KvCall

open scoped Classical in
/-- **The ordered map.** What a call answers on the contents `m`, and the contents it leaves. -/
noncomputable def reference (m : Contents) : KvCall → Result KvAnswer × Contents
  | .exists key => (.ok (.bool (m.get key).isSome), m)
  | .get key => (.ok (.val (m.get key)), m)
  | .set key val => (.ok .unit, m.insert key val)
  | .put key val =>
    if m.get key = none then (.ok .unit, m.insert key val)
    else (.error (.keyAlreadyExists key), m)
  | .del key => (.ok .unit, m.erase key)
  | .delr start stop | .clrr start stop =>
    (.ok .unit, m.restrict fun k ↦ ¬(start ≤ k ∧ k < stop))
  | .keys start stop limit skip =>
    (.ok (.keys ((((m.between start stop).map Prod.fst).drop skip.toNat).take limit.toNat)), m)
  | .keysr start stop limit skip =>
    (.ok (.keys
      ((((m.between start stop).map Prod.fst).reverse.drop skip.toNat).take limit.toNat)), m)
  | .scan start stop limit skip =>
    (.ok (.pairs (((m.between start stop).drop skip.toNat).take limit.toNat)), m)
  | .scanr start stop limit skip =>
    (.ok (.pairs (((m.between start stop).reverse.drop skip.toNat).take limit.toNat)), m)
  | .getr start stop => (.ok (.pairs (m.between start stop)), m)
  | .count start stop => (.ok (.count (m.between start stop).length), m)

/-- The call as an operation of the inner transaction; `clrr` delegates to `delr`. -/
def op : KvCall → Op
  | .exists key => .exists key
  | .get key => .get key
  | .set key val => .set key val
  | .put key val => .put key val
  | .del key => .del key
  | .delr start stop | .clrr start stop => .delr start stop
  | .keys start stop limit skip => .keys start stop limit skip
  | .keysr start stop limit skip => .keysr start stop limit skip
  | .scan start stop limit skip => .scan start stop limit skip
  | .scanr start stop limit skip => .scanr start stop limit skip
  | .getr start stop => .getr start stop
  | .count start stop => .count start stop

/-- The call on a `PgTx`. -/
def call : KvCall → Call
  | .exists key => .exists key none
  | .get key => .get key none
  | .set key val => .set key val
  | .put key val => .put key val
  | .del key => .del key
  | .delr start stop => .delr start stop
  | .clrr start stop => .clrr start stop
  | .keys start stop limit skip => .keys start stop limit skip none
  | .keysr start stop limit skip => .keysr start stop limit skip none
  | .scan start stop limit skip => .scan start stop limit skip none
  | .scanr start stop limit skip => .scanr start stop limit skip none
  | .getr start stop => .getr start stop none
  | .count start stop => .count start stop none

end KvCall

namespace KvAnswer

/-- The answer as the inner transaction returns it. -/
def answer : KvAnswer → Answer
  | .unit => .unit
  | .bool b => .bool b
  | .val v => .val v
  | .keys ks => .keys ks
  | .pairs ps => .pairs ps
  | .count n => .count n

/-- The answer as a `PgTx` reports it, with the bytes of the keys and of the values. -/
def reported : KvAnswer → CallAnswer
  | .unit => .unit ()
  | .bool b => .bool b
  | .val v => .val v
  | .keys ks => .keys ⟨ks, (ks.map List.length).sum⟩
  | .pairs ps =>
    .scan ⟨ps, (ps.map fun p ↦ p.1.length).sum, (ps.map fun p ↦ p.2.length).sum⟩
  | .count n => .count n

end KvAnswer

/-! ## One program on a transaction in use -/

/-- A write transaction in use, begun on the contents `base` of the database, in which the table
now stands for `m`. -/
def Client.Holds (conn : TxConn) (base : Database) (c : Client) (m : Contents) : Prop :=
  ∃ b, c.Usable conn b ∧ b.base = base ∧ b.cur.kv.toMap = m

/-- Nothing is refused. -/
abbrev calm : ℕ → Option SqlxError := fun _ ↦ none

/-- On a transaction that holds `m` the program `f` returns `r`, and the transaction then
holds `m'`. -/
def Yields {α : Type} (f : PgTransaction → Async (Result α)) (m : Contents) (r : Result α)
    (m' : Contents) : Prop :=
  ∀ (c : Client) (conn : TxConn) (base : Database), c.Holds conn base m →
    ∃ c' : Client, c'.tx = c.tx ∧ c'.Holds conn base m' ∧
      (f c.tx).eval (Wire.answer calm) c.wire = (r, c'.wire)

section

variable {α : Type} {f : PgTransaction → Async (Result α)} {m m' : Contents} {r : Result α}

theorem Yields.congr {g : PgTransaction → Async (Result α)}
    (h : ∀ tx : PgTransaction, tx.writeable = true → tx.conn.isSome = true → f tx = g tx)
    (hg : Yields g m r m') : Yields f m r m' := by
  intro c conn base hc
  obtain ⟨b, hb, -, -⟩ := id hc
  rw [h c.tx hb.writeable (by rw [hb.conn]; rfl)]
  exact hg c conn base hc

theorem yields_pure : Yields (fun _ ↦ pure r) m r m := fun c _ _ hc ↦ ⟨c, rfl, hc, rfl⟩

theorem yields_query {stmt : Stmt} {key : Option Key} {decode : Reply → Result α}
    (hexec : ∀ d : Database, d.kv.toMap = m →
      ∃ p d', stmt.exec d = .ok (p, d') ∧ decode p = r ∧ d'.kv.toMap = m') :
    Yields (fun tx ↦ tx.query stmt key decode) m r m' := by
  rintro c conn base ⟨b, hb, hbase, hm⟩
  obtain ⟨p, d, hd, hp, hm'⟩ := hexec b.cur hm
  refine ⟨c.after b d, rfl, ⟨_, hb.after d, hbase, hm'⟩, ?_⟩
  rw [PgTransaction.query_eval hb rfl hd, hp]

theorem yields_writeQuery {stmt : Stmt} {key : Option Key} {decode : Reply → Result α}
    (hexec : ∀ d : Database, d.kv.toMap = m →
      ∃ p d', stmt.exec d = .ok (p, d') ∧ decode p = r ∧ d'.kv.toMap = m') :
    Yields (fun tx ↦ tx.writeQuery stmt key decode) m r m' :=
  (yields_query hexec).congr fun _ hwr _ ↦ PgTransaction.writeQuery_of_writeable hwr _ _ _

end

/-! ## Keys -/

theorem exists_yields (key : Key) (m : Contents) :
    Yields (fun tx ↦ tx.exists key) m (.ok (m.get key).isSome) m := by
  refine yields_query ?_
  rintro d rfl
  refine ⟨_, _, rfl, ?_, rfl⟩
  rw [Table.get_toMap]
  cases d.kv.get? key <;> rfl

theorem get_yields (key : Key) (m : Contents) :
    Yields (fun tx ↦ tx.get key) m (.ok (m.get key)) m := by
  refine yields_query ?_
  rintro d rfl
  refine ⟨_, _, rfl, ?_, rfl⟩
  rw [Table.get_toMap]
  cases d.kv.get? key <;> rfl

theorem set_yields (key : Key) (val : Val) (m : Contents) :
    Yields (fun tx ↦ tx.set key val) m (.ok ()) (m.insert key val) := by
  refine yields_writeQuery ?_
  rintro d rfl
  refine ⟨_, _, rfl, rfl, ?_⟩
  exact Table.toMap_upsert _ _ _

theorem del_yields (key : Key) (m : Contents) :
    Yields (fun tx ↦ tx.del key) m (.ok ()) (m.erase key) := by
  refine yields_writeQuery ?_
  rintro d rfl
  refine ⟨_, _, rfl, rfl, ?_⟩
  exact Table.toMap_erase _ _

theorem put_yields_absent (key : Key) (val : Val) {m : Contents} (h : m.get key = none) :
    Yields (fun tx ↦ tx.put key val) m (.ok ()) (m.insert key val) := by
  refine yields_writeQuery ?_
  rintro d rfl
  rw [Table.get_toMap] at h
  refine ⟨_, _, if_neg ?_, rfl, Table.toMap_upsert _ _ _⟩
  rw [h]
  exact Bool.false_ne_true

theorem put_yields_present (key : Key) (val : Val) {m : Contents} (h : m.get key ≠ none) :
    Yields (fun tx ↦ tx.put key val) m (.error (.keyAlreadyExists key)) m := by
  refine yields_writeQuery ?_
  rintro d rfl
  exact ⟨_, _, if_pos (Option.isSome_iff_ne_none.mpr h), rfl, rfl⟩

/-! ## Ranges -/

theorem inRange_iff {start stop k : Key} :
    inRange start stop k = true ↔ start ≤ k ∧ k < stop := by
  rw [inRange, Bool.and_eq_true, decide_eq_true_iff, decide_eq_true_iff]

theorem rangeRows_eq_between (t : Table Key Val) (start stop : Key) :
    rangeRows t start stop = t.toMap.between start stop := by
  rw [rangeRows, Table.rows_eq_entries, Table.toMap_filter t fun _ ↦ inRange_iff,
    FiniteMap.between]

/-- An empty range has nothing in it to delete. -/
theorem restrict_of_le (m : Contents) {start stop : Key} (h : stop ≤ start) :
    m.restrict (fun k ↦ ¬(start ≤ k ∧ k < stop)) = m := by
  classical
  refine FiniteMap.ext (funext fun k ↦ ?_)
  have hout : ¬(start ≤ k ∧ k < stop) := fun hk ↦ (hk.1.trans_lt hk.2).not_ge h
  rw [FiniteMap.get_restrict, if_pos hout]

theorem delr_yields (start stop : Key) (m : Contents) :
    Yields (fun tx ↦ tx.delr start stop) m (.ok ())
      (m.restrict fun k ↦ ¬(start ≤ k ∧ k < stop)) := by
  by_cases hle : stop ≤ start
  · rw [restrict_of_le m hle]
    refine Yields.congr (fun tx hwr _ ↦ ?_) yields_pure
    rw [PgTransaction.delr, PgTransaction.checkWriteable, hwr]
    exact if_pos hle
  · refine Yields.congr (g := fun tx ↦ tx.query (.delr start stop) none fun _ ↦ .ok ())
      (fun tx hwr _ ↦ ?_) (yields_query ?_)
    · rw [PgTransaction.delr, PgTransaction.checkWriteable, hwr]
      exact if_neg hle
    · rintro d rfl
      refine ⟨_, _, rfl, rfl, Table.toMap_filter _ fun k ↦ ?_⟩
      rw [Bool.not_eq_true', ← Bool.not_eq_true, inRange_iff]

theorem rangeQueryOffset_yields {α : Type} {stmt : Stmt} {start stop : Key}
    {decode : List Row → List α} {m : Contents} {l : List α}
    (hexec : ∀ d : Database, d.kv.toMap = m →
      ∃ p, stmt.exec d = .ok (p, d) ∧ decode p.rows = l)
    (hnil : m.between start stop = [] → decode [] = l) :
    Yields (fun tx ↦ tx.rangeQueryOffset stmt start stop decode) m (.ok l) m := by
  by_cases hle : stop ≤ start
  · rw [← hnil (FiniteMap.between_of_le hle)]
    refine Yields.congr (fun tx _ hconn ↦ ?_) yields_pure
    obtain ⟨conn, hconn⟩ := Option.isSome_iff_exists.mp hconn
    rw [PgTransaction.rangeQueryOffset, hconn]
    exact if_pos hle
  · refine Yields.congr (g := fun tx ↦ tx.query stmt none fun r ↦ .ok (decode r.rows))
      (fun tx _ hconn ↦ ?_) (yields_query fun d hd ↦ ?_)
    · obtain ⟨conn, hconn⟩ := Option.isSome_iff_exists.mp hconn
      rw [PgTransaction.rangeQueryOffset, hconn]
      exact if_neg hle
    · obtain ⟨p, hp, hl⟩ := hexec d hd
      exact ⟨p, d, hp, congrArg Except.ok hl, hd⟩

theorem rowsToKeys_page (limit skip : ℕ) (rows : List (Key × Val)) :
    PgTransaction.rowsToKeys ((page limit skip rows).map fun r ↦ .key r.1) =
      ((rows.map Prod.fst).drop skip).take limit := by
  rw [PgTransaction.rowsToKeys, List.map_map, page, List.map_take, List.map_drop]
  rfl

theorem rowsToPairs_map (rows : List (Key × Val)) :
    PgTransaction.rowsToPairs (rows.map fun r ↦ .pair r.1 r.2) = rows := by
  rw [PgTransaction.rowsToPairs, List.map_map]
  exact List.map_id rows

section

variable (start stop : Key) (limit skip : UInt32) (m : Contents)

theorem keys_yields :
    Yields (fun tx ↦ tx.keys start stop limit skip) m
      (.ok ((((m.between start stop).map Prod.fst).drop skip.toNat).take limit.toNat)) m := by
  refine rangeQueryOffset_yields ?_ fun hnil ↦ by rw [hnil]; simp [PgTransaction.rowsToKeys]
  rintro d rfl
  refine ⟨_, rfl, ?_⟩
  rw [rowsToKeys_page, rangeRows_eq_between]

theorem keysr_yields :
    Yields (fun tx ↦ tx.keysr start stop limit skip) m
      (.ok ((((m.between start stop).map Prod.fst).reverse.drop skip.toNat).take
        limit.toNat)) m := by
  refine rangeQueryOffset_yields ?_ fun hnil ↦ by rw [hnil]; simp [PgTransaction.rowsToKeys]
  rintro d rfl
  refine ⟨_, rfl, ?_⟩
  rw [rowsToKeys_page, rangeRows_eq_between, List.map_reverse]

theorem scan_yields :
    Yields (fun tx ↦ tx.scan start stop limit skip) m
      (.ok (((m.between start stop).drop skip.toNat).take limit.toNat)) m := by
  refine rangeQueryOffset_yields ?_ fun hnil ↦ by rw [hnil]; simp [PgTransaction.rowsToPairs]
  rintro d rfl
  refine ⟨_, rfl, ?_⟩
  rw [rowsToPairs_map, rangeRows_eq_between, page]

theorem scanr_yields :
    Yields (fun tx ↦ tx.scanr start stop limit skip) m
      (.ok (((m.between start stop).reverse.drop skip.toNat).take limit.toNat)) m := by
  refine rangeQueryOffset_yields ?_ fun hnil ↦ by rw [hnil]; simp [PgTransaction.rowsToPairs]
  rintro d rfl
  refine ⟨_, rfl, ?_⟩
  rw [rowsToPairs_map, rangeRows_eq_between, page]

theorem getr_yields :
    Yields (fun tx ↦ tx.getr start stop) m (.ok (m.between start stop)) m := by
  by_cases hle : stop ≤ start
  · rw [FiniteMap.between_of_le hle]
    exact Yields.congr (fun tx _ _ ↦ if_pos hle) yields_pure
  · refine Yields.congr (g := fun tx ↦ tx.query (.rangeKvAll start stop) none fun r ↦
      .ok (PgTransaction.rowsToPairs r.rows)) (fun tx _ _ ↦ if_neg hle) (yields_query ?_)
    rintro d rfl
    refine ⟨_, _, rfl, ?_, rfl⟩
    rw [rowsToPairs_map, rangeRows_eq_between]

theorem count_yields :
    Yields (fun tx ↦ tx.count start stop) m (.ok (m.between start stop).length) m := by
  by_cases hle : stop ≤ start
  · rw [FiniteMap.between_of_le hle]
    exact Yields.congr (fun tx _ _ ↦ if_pos hle) yields_pure
  · refine Yields.congr (g := fun tx ↦ tx.query (.count start stop) none fun r ↦
      .ok ((r.rows.head?.map Row.getNum).getD 0).toNat) (fun tx _ _ ↦ if_neg hle) (yields_query ?_)
    rintro d rfl
    refine ⟨_, _, rfl, ?_, rfl⟩
    rw [← rangeRows_eq_between]
    rfl

end

/-! ## One call

The two layers run the same program: the inner transaction returns its result, and a `PgTx` takes
the lock around it and reports the result with the bytes in it. -/

/-- A call on a `PgTx` that nobody else is using. -/
def Solo.serve (s : Solo) (c : Call) : KvsResult CallAnswer × Solo :=
  (c.code true).eval (Solo.answer calm) s

namespace KvCall

/-- On contents `m`, both layers answer `call` as the map does and leave what it leaves. -/
def Answered (call : KvCall) (m : Contents) : Prop :=
  ∀ (c : Client) (conn : TxConn) (base : Database), c.Holds conn base m →
    ∃ c' : Client, c'.Holds conn base (call.reference m).2 ∧
      c.perform calm call.op = ((call.reference m).1.map KvAnswer.answer, c') ∧
      c.solo.serve call.call =
        (((call.reference m).1.mapError .ofPgStoreError).map KvAnswer.reported, c'.solo)

theorem answered_of_yields {α : Type} {call : KvCall} {m m' : Contents} {r : Result α}
    {f : PgTransaction → Async (Result α)} {guard : TxAsync (KvsResult PgTransaction)}
    (g : α → KvAnswer) (hf : Yields f m r m')
    (hop : ∀ tx, call.op.run tx = keeping tx (fun a ↦ (g a).answer) (f tx))
    (hguard : ∀ tx w, guard.eval (Solo.answer calm) ⟨some tx, false, w⟩ =
      (.ok tx, ⟨some tx, false, w⟩))
    (hcall : call.call.code true =
      Call.wrap (fun a ↦ (g a).reported) (PgTx.withTx guard (PgTx.reading f)))
    (href : call.reference m = (r.map g, m')) : call.Answered m := by
  intro c conn base hc
  obtain ⟨c', htx, hc', heval⟩ := hf c conn base hc
  refine ⟨c', by rwa [href], ?_, ?_⟩
  · rw [Client.perform, hop, keeping, Dialogue.eval_map, heval, href]
    -- the transaction value is untouched, so the client is the old one with the new wire
    cases r <;> exact Prod.ext rfl (by rw [← htx])
  · rw [Solo.serve, hcall, Call.wrap, Dialogue.eval_map, Client.solo,
      PgTx.withTx_eval (hguard _ _), PgTx.reading, Dialogue.eval_map, heval, href, ← htx]
    cases r <;> rfl

theorem scanResult_eq (ps : List (Key × Val)) :
    CallAnswer.scan (PgTx.scanResult ps) = (KvAnswer.pairs ps).reported := by
  rw [PgTx.scanResult, PgTx.keyBytes, List.map_map]
  rfl

/-- **Every call answers as the ordered map does.** -/
theorem answered (call : KvCall) (m : Contents) : call.Answered m := by
  have hlock : ∀ tx w, PgTx.lock.eval (Solo.answer calm) ⟨some tx, false, w⟩ =
      (.ok tx, ⟨some tx, false, w⟩) := fun _ _ ↦ rfl
  have hwrite := PgTx.lockWrite_eval calm
  cases call with
  | «exists» key =>
    exact answered_of_yields .bool (exists_yields key m) (fun _ ↦ rfl) hlock rfl rfl
  | get key => exact answered_of_yields .val (get_yields key m) (fun _ ↦ rfl) hlock rfl rfl
  | set key val =>
    exact answered_of_yields (fun _ ↦ .unit) (set_yields key val m) (fun _ ↦ rfl) hwrite rfl rfl
  | put key val =>
    by_cases h : m.get key = none
    · exact answered_of_yields (fun _ ↦ .unit) (put_yields_absent key val h) (fun _ ↦ rfl) hwrite
        rfl (if_pos h)
    · exact answered_of_yields (fun _ ↦ .unit) (put_yields_present key val h) (fun _ ↦ rfl) hwrite
        rfl (if_neg h)
  | del key =>
    exact answered_of_yields (fun _ ↦ .unit) (del_yields key m) (fun _ ↦ rfl) hwrite rfl rfl
  | delr start stop | clrr start stop =>
    exact answered_of_yields (fun _ ↦ .unit) (delr_yields start stop m) (fun _ ↦ rfl) hwrite rfl
      rfl
  | keys start stop limit skip =>
    exact answered_of_yields .keys (keys_yields start stop limit skip m) (fun _ ↦ rfl) hlock
      (PgTx.wrap_map _ _ _) rfl
  | keysr start stop limit skip =>
    exact answered_of_yields .keys (keysr_yields start stop limit skip m) (fun _ ↦ rfl) hlock
      (PgTx.wrap_map _ _ _) rfl
  | scan start stop limit skip =>
    refine answered_of_yields .pairs (scan_yields start stop limit skip m) (fun _ ↦ rfl) hlock
      ?_ rfl
    rw [← funext scanResult_eq]
    exact PgTx.wrap_map _ _ _
  | scanr start stop limit skip =>
    refine answered_of_yields .pairs (scanr_yields start stop limit skip m) (fun _ ↦ rfl) hlock
      ?_ rfl
    rw [← funext scanResult_eq]
    exact PgTx.wrap_map _ _ _
  | getr start stop =>
    refine answered_of_yields .pairs (getr_yields start stop m) (fun _ ↦ rfl) hlock ?_ rfl
    rw [← funext scanResult_eq]
    exact PgTx.wrap_map _ _ _
  | count start stop =>
    exact answered_of_yields .count (count_yields start stop m) (fun _ ↦ rfl) hlock rfl rfl

end KvCall

/-! ## Every run -/

/-- **The calls refine an ordered map.** On a write transaction in use that holds `m`, with nothing
refused, any run of calls returns from the inner transaction what the ordered map answers and
leaves the table the map is left as; a `PgTx` reports the same answers with the bytes of the keys
and values returned, and leaves the same table. -/
theorem kvCalls_refine_map {c : Client} {conn : TxConn} {base : Database} {m : Contents}
    (h : c.Holds conn base m) (calls : List KvCall) :
    ((serve (Client.perform calm) c (calls.map KvCall.op)).1 =
        (serve KvCall.reference m calls).1.map (Except.map KvAnswer.answer) ∧
      (serve (Client.perform calm) c (calls.map KvCall.op)).2.Holds conn base
        (serve KvCall.reference m calls).2) ∧
    ((serve Solo.serve c.solo (calls.map KvCall.call)).1 =
        (serve KvCall.reference m calls).1.map
          (fun r ↦ (r.mapError .ofPgStoreError).map KvAnswer.reported) ∧
      ∃ c' : Client, (serve Solo.serve c.solo (calls.map KvCall.call)).2 = c'.solo ∧
        c'.Holds conn base (serve KvCall.reference m calls).2) := by
  constructor
  · refine serve_simulates (R := fun c m ↦ Client.Holds conn base c m) ?_ h calls
    intro c m call hc
    obtain ⟨c', hc', hperform, -⟩ := call.answered m c conn base hc
    rw [hperform]
    exact ⟨rfl, hc'⟩
  · refine serve_simulates (R := fun s m ↦ ∃ c : Client, s = c.solo ∧ c.Holds conn base m) ?_
      ⟨c, rfl, h⟩ calls
    rintro s m call ⟨c, rfl, hc⟩
    obtain ⟨c', hc', -, hserve⟩ := call.answered m c conn base hc
    rw [hserve]
    exact ⟨rfl, c', rfl, hc'⟩

/-- A transaction just begun holds the committed contents: a second `put` of a key finds the
first. -/
theorem kvCalls_refine_map_opened :
    (serve (Client.perform calm) (Client.opened .pooled ⟨∅, []⟩)
      ([.put [1] [10], .put [1] [20]].map KvCall.op)).1 =
        [.ok .unit, .error (.keyAlreadyExists [1])] := by
  have hopen : (Client.opened .pooled ⟨∅, []⟩).Holds .pooled ⟨∅, []⟩
      (∅ : Table Key Val).toMap := ⟨Block.begin ⟨∅, []⟩, ⟨rfl, rfl, rfl, rfl⟩, rfl, rfl⟩
  have habsent : (∅ : Table Key Val).toMap.get [1] = none := rfl
  have hpresent : ((∅ : Table Key Val).toMap.insert [1] [10]).get [1] ≠ none := by
    rw [FiniteMap.get_insert, if_pos rfl]
    exact Option.some_ne_none _
  rw [(kvCalls_refine_map hopen [.put [1] [10], .put [1] [20]]).1.1]
  simp only [serve, KvCall.reference, if_pos habsent, if_neg hpresent, List.map_cons, List.map_nil]
  rfl

end SurrealPg
