import SurrealPg.PgTx.Refinement
import SurrealPg.Semantics.Paging

/-!
# Paged reads

A range is read either at once, with `getr`, or in batches: by the cursor driver, which calls `keys`
or `scan` with `skip` zero and moves the start of the range just past the last key returned, or by
offsets, which keep the range and move `skip`. All of them read the same listing, from the inner
transaction as from a `PgTx`, and a transaction for reading reads it as one for writing does.

The cursor driver has a next cursor after every batch, since appending a zero byte gives the next
byte string in `bytea` order. The offsets are `u32`s, so there is no next offset once the skips
leave 32 bits: reading by offsets gets to its end exactly when the full batches of the range do.
-/

namespace SurrealPg

open Postgres Semantics

/-! ## Reading without writing -/

/-- An open transaction, for reading or for writing, in whose running block the table stands for
`m`. -/
def Client.Sees (c : Client) (m : Contents) : Prop :=
  ∃ conn b, c.tx.conn = some conn ∧ c.wire.session = .inBlock b ∧ b.aborted = false ∧
    b.cur.kv.toMap = m

/-- A program that runs alike in both modes. -/
def ModeBlind {α : Type} (f : PgTransaction → Async (Result α)) : Prop :=
  ∀ (tx : PgTransaction) (w : Wire), (f tx).eval (Wire.answer calm) w =
    (f { tx with writeable := true }).eval (Wire.answer calm) w

theorem query_modeBlind {α : Type} (stmt : Stmt) (key : Option Key) (decode : Reply → Result α) :
    ModeBlind fun tx ↦ tx.query stmt key decode := by
  rintro ⟨conn, writeable, counter, savepoints⟩ w
  cases conn with
  | none => rfl
  | some conn =>
    -- the two runs differ in the value that a dropped future would leave behind
    simp only [PgTransaction.query, sendCommand, Dialogue.ask_bind, Dialogue.done_bind,
      Dialogue.eval_ask]

theorem rangeQueryOffset_modeBlind {α : Type} (stmt : Stmt) (start stop : Key)
    (decode : List Row → List α) :
    ModeBlind fun tx ↦ tx.rangeQueryOffset stmt start stop decode := by
  rintro ⟨conn, writeable, counter, savepoints⟩ w
  cases conn with
  | none => rfl
  | some conn =>
    simp only [PgTransaction.rangeQueryOffset]
    split_ifs
    · rfl
    · exact query_modeBlind _ _ _ ⟨some conn, writeable, counter, savepoints⟩ w

theorem getr_modeBlind (start stop : Key) : ModeBlind fun tx ↦ tx.getr start stop := by
  intro tx w
  dsimp only
  rw [PgTransaction.getr, PgTransaction.getr]
  split_ifs
  · rfl
  · exact query_modeBlind _ _ _ tx w

/-- Run a program on a transaction: what it returns, unless an error. -/
def Client.result {α : Type} (f : PgTransaction → Async (Result α)) (c : Client) :
    Option α × Client :=
  let r := (f c.tx).eval (Wire.answer calm) c.wire
  (r.1.toOption, ⟨c.tx, r.2⟩)

/-- Make a call on a `PgTx` that nobody else is using. -/
def Solo.result {α : Type} (call : TxAsync (KvsResult α)) (s : Solo) : Option α × Solo :=
  let r := call.eval (Solo.answer calm) s
  (r.1.toOption, r.2)

section

variable {α β : Type} {f : PgTransaction → Async (Result α)} {c : Client} {m : Contents} {a : α}

/-- What a write transaction in use yields without changing its contents, an open transaction in
either mode returns. -/
theorem Client.Sees.result_of_yields (h : c.Sees m) (hf : Yields f m (.ok a) m)
    (hblind : ModeBlind f) : (c.result f).1 = some a ∧ (c.result f).2.Sees m := by
  obtain ⟨conn, b, hconn, hsession, hrunning, hm⟩ := h
  have hholds : (Client.mk { c.tx with writeable := true } c.wire).Holds conn b.base m :=
    ⟨b, ⟨hconn, rfl, hsession, hrunning⟩, rfl, hm⟩
  obtain ⟨c', -, ⟨b', hb', -, hm'⟩, heval⟩ := hf _ conn b.base hholds
  rw [Client.result, hblind, heval]
  exact ⟨rfl, conn, b', hconn, hb'.session, hb'.running, hm'⟩

theorem Client.Sees.solo_result (h : c.Sees m) (hf : Yields f m (.ok a) m)
    (hblind : ModeBlind f) (g : α → β) :
    (c.solo.result (Except.map g <$> PgTx.read none f)).1 = some (g a) ∧
      ∃ c' : Client, (c.solo.result (Except.map g <$> PgTx.read none f)).2 = c'.solo ∧
        c'.Sees m := by
  obtain ⟨hval, hsees⟩ := h.result_of_yields hf hblind
  dsimp only [Client.result] at hval hsees
  rw [Solo.result, Dialogue.eval_map, Client.solo, PgTx.read_eval]
  refine ⟨?_, _, rfl, hsees⟩
  cases hr : ((f c.tx).eval (Wire.answer calm) c.wire).1 with
  | error e =>
    rw [hr] at hval
    exact absurd hval.symm (Option.some_ne_none a)
  | ok a' =>
    rw [hr] at hval
    obtain rfl : a' = a := Option.some.inj hval
    rfl

end

/-! ## The reads of a layer -/

/-- The range reads, with what they return, or `none` for an error, and the state they leave. -/
structure Reader (σ : Type) where
  keys (start stop : Key) (limit skip : UInt32) : σ → Option (List Key) × σ
  scan (start stop : Key) (limit skip : UInt32) : σ → Option (List (Key × Val)) × σ
  getr (start stop : Key) : σ → Option (List (Key × Val)) × σ

namespace Reader

/-- A `PgTransaction` on its connection. -/
def inner : Reader Client where
  keys start stop limit skip := Client.result fun tx ↦ tx.keys start stop limit skip
  scan start stop limit skip := Client.result fun tx ↦ tx.scan start stop limit skip
  getr start stop := Client.result fun tx ↦ tx.getr start stop

/-- A `PgTx`. -/
def pgTx : Reader Solo where
  keys start stop limit skip s :=
    (s.result (PgTx.keys start stop limit skip none)).map (Option.map KeysResult.keys) id
  scan start stop limit skip s :=
    (s.result (PgTx.scan start stop limit skip none)).map (Option.map ScanResult.values) id
  getr start stop s := (s.result (PgTx.getr start stop none)).map (Option.map ScanResult.values) id

variable {σ : Type}

/-- In the states of `I`, which reading does not leave, the reads answer from `m`. -/
structure Shows (R : Reader σ) (m : Contents) (I : σ → Prop) : Prop where
  keys : ∀ {s}, I s → ∀ start stop limit skip,
    (R.keys start stop limit skip s).1 =
      some (page limit.toNat skip.toNat ((m.between start stop).map Prod.fst)) ∧
    I (R.keys start stop limit skip s).2
  scan : ∀ {s}, I s → ∀ start stop limit skip,
    (R.scan start stop limit skip s).1 =
      some (page limit.toNat skip.toNat (m.between start stop)) ∧
    I (R.scan start stop limit skip s).2
  getr : ∀ {s}, I s → ∀ start stop,
    (R.getr start stop s).1 = some (m.between start stop) ∧ I (R.getr start stop s).2

theorem inner_shows (m : Contents) : inner.Shows m fun c ↦ c.Sees m where
  keys h start stop limit skip :=
    h.result_of_yields (keys_yields start stop limit skip m) (rangeQueryOffset_modeBlind _ _ _ _)
  scan h start stop limit skip :=
    h.result_of_yields (scan_yields start stop limit skip m) (rangeQueryOffset_modeBlind _ _ _ _)
  getr h start stop := h.result_of_yields (getr_yields start stop m) (getr_modeBlind _ _)

theorem pgTx_shows (m : Contents) :
    pgTx.Shows m fun s ↦ ∃ c : Client, s = c.solo ∧ c.Sees m where
  keys := by
    rintro s ⟨c, rfl, h⟩ start stop limit skip
    obtain ⟨hval, hstate⟩ := h.solo_result (keys_yields start stop limit skip m)
      (rangeQueryOffset_modeBlind _ _ _ _) PgTx.keysResult
    exact ⟨congrArg (Option.map KeysResult.keys) hval, hstate⟩
  scan := by
    rintro s ⟨c, rfl, h⟩ start stop limit skip
    obtain ⟨hval, hstate⟩ := h.solo_result (scan_yields start stop limit skip m)
      (rangeQueryOffset_modeBlind _ _ _ _) PgTx.scanResult
    exact ⟨congrArg (Option.map ScanResult.values) hval, hstate⟩
  getr := by
    rintro s ⟨c, rfl, h⟩ start stop
    obtain ⟨hval, hstate⟩ := h.solo_result (getr_yields start stop m)
      (getr_modeBlind start stop) PgTx.scanResult
    exact ⟨congrArg (Option.map ScanResult.values) hval, hstate⟩

/-! ## The drivers -/

/-- The key just past `k`: `last_key + \x00`. -/
def keyAfter (k : Key) : Key := k ++ [0]

theorem keyAfter_le_iff {k k' : Key} : keyAfter k ≤ k' ↔ k < k' :=
  append_least_le_iff fun _ ↦ UInt8.le_iff_toNat_le.mpr (Nat.zero_le _)

/-- The cursor driver over `scan`: from the state and the start of the range, what it returns and
the state it leaves. -/
def CursorScan (R : Reader σ) (stop : Key) (n : UInt32) : σ → Key → List (Key × Val) → σ → Prop :=
  Paged (fun s start ↦ R.scan start stop n 0 s)
    (fun _ batch ↦ batch.getLast?.map fun e ↦ keyAfter e.1) n.toNat

/-- The cursor driver over `keys`. -/
def CursorKeys (R : Reader σ) (stop : Key) (n : UInt32) : σ → Key → List Key → σ → Prop :=
  Paged (fun s start ↦ R.keys start stop n 0 s) (fun _ batch ↦ batch.getLast?.map keyAfter) n.toNat

/-- The next offset, as far as a `u32` holds it. -/
def nextSkip (n skip : UInt32) : Option UInt32 :=
  if skip.toNat + n.toNat < UInt32.size then some (skip + n) else none

/-- Reading by offsets: `scan(range, n, skip)`, `scan(range, n, skip + n)`, and so on. -/
def OffsetScan (R : Reader σ) (start stop : Key) (n : UInt32) :
    σ → UInt32 → List (Key × Val) → σ → Prop :=
  Paged (fun s skip ↦ R.scan start stop n skip s) (fun skip _ ↦ nextSkip n skip) n.toNat

/-- A driver gets to its end, and whenever it does it has returned `l`. -/
def Returns {α : Type} (driver : List α → σ → Prop) (l : List α) : Prop :=
  (∃ s', driver l s') ∧ ∀ l' s', driver l' s' → l' = l

section Tiling

variable {R : Reader σ} {m : Contents} {I : σ → Prop} {s : σ} {n : UInt32}

/-- **Past a full batch** the range goes on with what the batch leaves. -/
theorem between_keyAfter {start stop : Key} {k : ℕ} (hk : 1 ≤ k)
    (hle : k ≤ (m.between start stop).length) :
    ∃ e, ((m.between start stop).take k).getLast? = some e ∧
      m.between (keyAfter e.1) stop = (m.between start stop).drop k := by
  have hne : (m.between start stop).take k ≠ [] := by
    rw [← List.length_pos_iff, List.length_take]
    omega
  obtain ⟨e, he⟩ : ∃ e, ((m.between start stop).take k).getLast? = some e :=
    ⟨_, List.getLast?_eq_some_getLast hne⟩
  obtain ⟨before, hbefore⟩ := List.getLast?_eq_some_iff.mp he
  have hsplit : m.between start stop = before ++ e :: (m.between start stop).drop k := by
    rw [List.append_cons, ← hbefore, List.take_append_drop]
  exact ⟨e, he, FiniteMap.between_after hsplit fun _ ↦ keyAfter_le_iff⟩

/-- **The cursor driver** returns the listing it starts on. The batches list the entries by `g`, and
`key` recovers the key of an entry. -/
theorem cursor_returns {α : Type} {g : Key × Val → α} {key : α → Key} (hkey : ∀ e, key (g e) = e.1)
    {read : σ → Key → Option (List α) × σ} {k : ℕ} {stop : Key} (hk : 1 ≤ k)
    (hread : ∀ s start, I s →
      (read s start).1 = some (((m.between start stop).map g).take k) ∧ I (read s start).2)
    (hs : I s) (start : Key) :
    Returns (Paged read (fun _ batch ↦ batch.getLast?.map fun a ↦ keyAfter (key a)) k s start)
      ((m.between start stop).map g) := by
  -- a full batch ends with an entry, and the listing goes on just after its key
  have hnext : ∀ start, k ≤ ((m.between start stop).map g).length → ∃ e : Key × Val,
      (((m.between start stop).map g).take k).getLast?.map (fun a ↦ keyAfter (key a)) =
        some (keyAfter e.1) ∧
      m.between (keyAfter e.1) stop = (m.between start stop).drop k := by
    intro start hle
    rw [List.length_map] at hle
    obtain ⟨e, he, hafter⟩ := between_keyAfter hk hle
    refine ⟨e, ?_, hafter⟩
    rw [← List.map_take, List.getLast?_map, he, Option.map_some, Option.map_some, hkey]
  -- what the driver still has to read is what is listed from its cursor on
  have htakes : TakesRest read (fun _ batch ↦ batch.getLast?.map fun a ↦ keyAfter (key a)) k
      fun s start l ↦ I s ∧ l = (m.between start stop).map g := by
    constructor
    · rintro s start l ⟨hs, rfl⟩
      exact (hread s start hs).1
    · rintro s start l c' ⟨hs, rfl⟩ hle hc'
      obtain ⟨e, he, hafter⟩ := hnext start hle
      obtain rfl : keyAfter e.1 = c' := Option.some.inj (he.symm.trans hc')
      exact ⟨(hread s start hs).2, by rw [hafter, List.map_drop]⟩
  refine ⟨htakes.exists_paged hk ?_ ⟨hs, rfl⟩, fun l' s' h ↦ htakes.eq_of_paged h ⟨hs, rfl⟩⟩
  rintro s start l ⟨-, rfl⟩ hle
  obtain ⟨e, he, -⟩ := hnext start hle
  exact ⟨_, he⟩

theorem cursorScan_returns (hR : R.Shows m I) (hs : I s) (start stop : Key) (hn : 1 ≤ n.toNat) :
    Returns (R.CursorScan stop n s start) (m.between start stop) := by
  have hread : ∀ s start, I s →
      (R.scan start stop n 0 s).1 = some (((m.between start stop).map id).take n.toNat) ∧
        I (R.scan start stop n 0 s).2 := by
    intro s start hs
    rw [List.map_id]
    exact hR.scan hs start stop n 0
  have hkey : ∀ e : Key × Val, (id e).1 = e.1 := fun _ ↦ rfl
  have h := cursor_returns hkey hn hread hs start
  rwa [List.map_id] at h

theorem cursorKeys_returns (hR : R.Shows m I) (hs : I s) (start stop : Key) (hn : 1 ≤ n.toNat) :
    Returns (R.CursorKeys stop n s start) ((m.between start stop).map Prod.fst) := by
  have hread : ∀ s start, I s →
      (R.keys start stop n 0 s).1 = some (((m.between start stop).map Prod.fst).take n.toNat) ∧
        I (R.keys start stop n 0 s).2 := fun s start hs ↦ hR.keys hs start stop n 0
  have hkey : ∀ e : Key × Val, id e.1 = e.1 := fun _ ↦ rfl
  exact cursor_returns hkey hn hread hs start

theorem toNat_add_of_lt {skip : UInt32} (h : skip.toNat + n.toNat < UInt32.size) :
    (skip + n).toNat = skip.toNat + n.toNat := by
  rw [UInt32.toNat_add, Nat.mod_eq_of_lt h]

theorem offsetScan_takesRest (hR : R.Shows m I) (start stop : Key) :
    TakesRest (fun s skip ↦ R.scan start stop n skip s) (fun skip _ ↦ nextSkip n skip) n.toNat
      fun s skip l ↦ I s ∧ l = (m.between start stop).drop skip.toNat where
  batch := by
    rintro s skip l ⟨hs, rfl⟩
    exact (hR.scan hs start stop n skip).1
  next := by
    rintro s skip l skip' ⟨hs, rfl⟩ hle hnext
    rw [nextSkip] at hnext
    split_ifs at hnext with hfit
    obtain rfl : skip + n = skip' := Option.some.inj hnext
    refine ⟨(hR.scan hs start stop n skip).2, ?_⟩
    rw [List.drop_drop, toNat_add_of_lt hfit]

theorem add_div_mul_drop {α : Type} {l : List α} {skip k : ℕ} (hk : 1 ≤ k) (hle : k ≤ l.length) :
    skip + k + (l.drop k).length / k * k = skip + l.length / k * k := by
  rw [List.length_drop, Nat.div_eq_sub_div hk hle, Nat.add_mul]
  omega

/-- The last skip of a complete run is the number of entries in full batches. -/
theorem skips_fit_of_offsetScan (hR : R.Shows m I) {start stop : Key} (hn : 1 ≤ n.toNat)
    {skip : UInt32} {l : List (Key × Val)} {s' : σ} (hrun : R.OffsetScan start stop n s skip l s')
    (hs : I s) :
    skip.toNat + ((m.between start stop).drop skip.toNat).length / n.toNat * n.toNat <
      UInt32.size := by
  have htakes := offsetScan_takesRest (n := n) hR start stop
  induction hrun with
  | @short s s' skip batch hread hlt =>
    have hbatch := htakes.batch (s := s) (c := skip) ⟨hs, rfl⟩
    rw [hread, Option.some.injEq] at hbatch
    rw [hbatch, List.length_take] at hlt
    rw [Nat.div_eq_of_lt (by omega), Nat.zero_mul, Nat.add_zero]
    exact skip.toNat_lt_size
  | @full s s' s'' skip skip' batch rest hread hle hnext _ ih =>
    have hbatch := htakes.batch (s := s) (c := skip) ⟨hs, rfl⟩
    rw [hread, Option.some.injEq] at hbatch
    rw [hbatch, List.length_take] at hle
    have hs' : I s' := by
      have := (hR.scan hs start stop n skip).2
      rwa [hread] at this
    rw [nextSkip] at hnext
    split_ifs at hnext with hfit
    obtain rfl : skip + n = skip' := Option.some.inj hnext
    have hrest := ih hs'
    rw [toNat_add_of_lt hfit, ← List.drop_drop, add_div_mul_drop hn (by omega)] at hrest
    exact hrest

theorem exists_offsetScan (hR : R.Shows m I) (hs : I s) {start stop : Key} (hn : 1 ≤ n.toNat)
    (hfits : (m.between start stop).length / n.toNat * n.toNat < UInt32.size) :
    ∃ s', R.OffsetScan start stop n s 0 (m.between start stop) s' := by
  have htakes := offsetScan_takesRest (n := n) hR start stop
  have hbounded : TakesRest (fun s skip ↦ R.scan start stop n skip s)
      (fun skip _ ↦ nextSkip n skip) n.toNat fun s skip l ↦
        (I s ∧ l = (m.between start stop).drop skip.toNat) ∧
          skip.toNat + l.length / n.toNat * n.toNat < UInt32.size := by
    refine ⟨fun h ↦ htakes.batch h.1, ?_⟩
    rintro s skip l skip' ⟨hrest, hfit⟩ hle hnext
    refine ⟨htakes.next hrest hle hnext, ?_⟩
    rw [nextSkip] at hnext
    split_ifs at hnext with hlt
    obtain rfl : skip + n = skip' := Option.some.inj hnext
    rwa [toNat_add_of_lt hlt, add_div_mul_drop hn hle]
  refine hbounded.exists_paged hn ?_ ⟨⟨hs, rfl⟩, ?_⟩
  · rintro s skip l ⟨-, hfit⟩ hle
    have hpos : 1 ≤ l.length / n.toNat := Nat.div_pos hle hn
    have hmul : n.toNat ≤ l.length / n.toNat * n.toNat := Nat.le_mul_of_pos_left _ hpos
    exact ⟨skip + n, if_pos (by omega)⟩
  · simpa using hfits

/-- **Reading by offsets** gets to its end exactly when all its skips are `u32`s. -/
theorem offsetScan_iff (hR : R.Shows m I) (hs : I s) (start stop : Key) (hn : 1 ≤ n.toNat) :
    (∃ l s', R.OffsetScan start stop n s 0 l s') ↔
      (m.between start stop).length / n.toNat * n.toNat < UInt32.size := by
  constructor
  · rintro ⟨l, s', hrun⟩
    simpa using skips_fit_of_offsetScan hR hn hrun hs
  · intro hfits
    exact ⟨_, exists_offsetScan hR hs hn hfits⟩

end Tiling

/-- The batches of a range, read from `s` with limit `n`, against reading it at once. -/
def Tiles (R : Reader σ) (start stop : Key) (n : UInt32) (s : σ) : Prop :=
  ∃ l, (R.getr start stop s).1 = some l ∧
    Returns (R.CursorScan stop n s start) l ∧
    Returns (R.CursorKeys stop n s start) (l.map Prod.fst) ∧
    (Returns (R.OffsetScan start stop n s 0) l ↔ l.length / n.toNat * n.toNat < UInt32.size) ∧
    ∀ l' s', R.OffsetScan start stop n s 0 l' s' → l' = l

theorem Shows.tiles {R : Reader σ} {m : Contents} {I : σ → Prop} (hR : R.Shows m I) {s : σ}
    (hs : I s) (start stop : Key) {n : UInt32} (hn : 1 ≤ n.toNat) : R.Tiles start stop n s := by
  have hoffset : ∀ l' s', R.OffsetScan start stop n s 0 l' s' → l' = m.between start stop :=
    fun l' s' h ↦ (offsetScan_takesRest hR start stop).eq_of_paged h ⟨hs, rfl⟩
  refine ⟨m.between start stop, (hR.getr hs start stop).1, cursorScan_returns hR hs start stop hn,
    cursorKeys_returns hR hs start stop hn, ?_, hoffset⟩
  rw [← offsetScan_iff hR hs start stop hn]
  constructor
  · rintro ⟨⟨s', hrun⟩, -⟩
    exact ⟨_, s', hrun⟩
  · rintro ⟨l, s', hrun⟩
    obtain rfl := hoffset l s' hrun
    exact ⟨⟨s', hrun⟩, hoffset⟩

end Reader

/-- **Paged reads tile the range.** On an open transaction in either mode with nothing refused, and
for every range and every positive limit: the cursor drivers get to their end and return what `getr`
returns, or its keys; reading by offsets returns the same if it gets to its end, and it does so
exactly when all its skips fit in 32 bits. All this of the inner transaction and of a `PgTx`. -/
theorem paged_reads_tile {c : Client} {m : Contents} (h : c.Sees m) (start stop : Key)
    {n : UInt32} (hn : 1 ≤ n.toNat) :
    Reader.inner.Tiles start stop n c ∧ Reader.pgTx.Tiles start stop n c.solo :=
  ⟨(Reader.inner_shows m).tiles h start stop hn,
    (Reader.pgTx_shows m).tiles ⟨c, rfl, h⟩ start stop hn⟩

/-- Five rows, whose keys are prefixes of one another, and one after them. -/
def prefixTable : Table Key Val where
  rows := [([1], [10]), ([1, 0], [11]), ([1, 0, 0], [12]), ([1, 0, 1], []), ([1, 1], [13]),
    ([2], [14])]
  sorted := by decide

/-- Read two at a time, with a last batch of one. -/
theorem paged_reads_tile_prefixes :
    (prefixTable.toMap.between [1] [2]).map Prod.fst = [[1], [1, 0], [1, 0, 0], [1, 0, 1], [1, 1]] ∧
      Reader.inner.Tiles [1] [2] 2 (Client.opened .pooled ⟨prefixTable, []⟩) ∧
      Reader.pgTx.Tiles [1] [2] 2 (Client.opened .pooled ⟨prefixTable, []⟩).solo := by
  have hrows : rangeRows prefixTable [1] [2] =
      [([1], [10]), ([1, 0], [11]), ([1, 0, 0], [12]), ([1, 0, 1], []), ([1, 1], [13])] := by
    decide
  have hsees : (Client.opened .pooled ⟨prefixTable, []⟩).Sees prefixTable.toMap :=
    ⟨.pooled, Block.begin ⟨prefixTable, []⟩, rfl, rfl, rfl, rfl⟩
  rw [← rangeRows_eq_between, hrows]
  exact ⟨rfl, paged_reads_tile hsees [1] [2] (by decide)⟩

/-! ## A range with too many rows -/

/-- The byte strings of length `d`, in order. -/
def byteStrings : ℕ → List Key
  | 0 => [[]]
  | d + 1 => (List.finRange 256).flatMap fun a ↦ (byteStrings d).map (UInt8.ofFin a :: ·)

theorem length_byteStrings (d : ℕ) : (byteStrings d).length = 256 ^ d := by
  induction d with
  | zero => rfl
  | succ d ih =>
    rw [byteStrings, List.length_flatMap]
    simp only [List.length_map, ih, List.map_const', List.sum_replicate_nat, List.length_finRange]
    rw [Nat.pow_succ, Nat.mul_comm]

theorem pairwise_byteStrings (d : ℕ) : (byteStrings d).Pairwise (· < ·) := by
  induction d with
  | zero => exact List.pairwise_singleton _ _
  | succ d ih =>
    rw [byteStrings, List.pairwise_flatMap]
    constructor
    · intro a _
      rw [List.pairwise_map]
      exact ih.imp fun h ↦ List.cons_lt_cons_iff.mpr (Or.inr ⟨rfl, h⟩)
    · refine (List.pairwise_lt_finRange 256).imp fun {a b} hab k hk k' hk' ↦ ?_
      obtain ⟨x, -, rfl⟩ := List.mem_map.mp hk
      obtain ⟨y, -, rfl⟩ := List.mem_map.mp hk'
      exact List.cons_lt_cons_iff.mpr (Or.inl hab)

/-- A row for each byte string of length `d`, under the key with a one before it. -/
def wideTable (d : ℕ) : Table Key Val where
  rows := (byteStrings d).map fun k ↦ (1 :: k, [])
  sorted := by
    rw [List.pairwise_map]
    exact (pairwise_byteStrings d).imp fun h ↦ List.cons_lt_cons_iff.mpr (Or.inr ⟨rfl, h⟩)

theorem length_between_wideTable (d : ℕ) :
    ((wideTable d).toMap.between [1] [2]).length = 256 ^ d := by
  have hall : ∀ r ∈ (wideTable d).rows, inRange [1] [2] r.1 = true := by
    rintro r hr
    obtain ⟨k, -, rfl⟩ := List.mem_map.mp hr
    rw [inRange_iff, ← not_lt]
    constructor
    · simp
    · exact List.cons_lt_cons_iff.mpr (Or.inl (by decide))
  have hrows : rangeRows (wideTable d) [1] [2] = (wideTable d).rows := List.filter_eq_self.mpr hall
  rw [← rangeRows_eq_between, hrows, wideTable, List.length_map, length_byteStrings]

/-- Over 2³² rows, read one at a time: no `u32` is the skip that would be needed to find that
nothing is left. -/
theorem not_offsetScan_tiles :
    ¬∀ (c : Client) (m : Contents) (start stop : Key) (n : UInt32), c.Sees m → 1 ≤ n.toNat →
      ∃ l, (Reader.inner.getr start stop c).1 = some l ∧
        Reader.Returns (Reader.inner.OffsetScan start stop n c 0) l := by
  intro h
  have hsees : (Client.opened .pooled ⟨wideTable 4, []⟩).Sees (wideTable 4).toMap :=
    ⟨.pooled, Block.begin ⟨wideTable 4, []⟩, rfl, rfl, rfl, rfl⟩
  obtain ⟨l, -, ⟨s', hrun⟩, -⟩ := h _ _ [1] [2] 1 hsees (by decide)
  have hfits := (Reader.offsetScan_iff (Reader.inner_shows _) hsees [1] [2] (by decide)).mp
    ⟨l, s', hrun⟩
  rw [length_between_wideTable] at hfits
  exact absurd hfits (by decide)

end SurrealPg
