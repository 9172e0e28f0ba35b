import SurrealPg.PgTx.Refinement
import SurrealPg.Transaction.Setm

/-!
# A batch write is its writes one by one

On a transaction in use, with nothing refused, `setm` leaves the table that a `set` of each pair in
order would leave. The requests it sends are batches, each of at least one and at most
`SETM_MAX_PAIRS` pairs: the deduplicated list cut into pieces, whatever the hash map's order. Its
keys are distinct, so a key is in one piece only, and no piece has a key twice.
-/

namespace SurrealPg

open Postgres Semantics

/-! ## Batches of a list with distinct keys -/

/-- The statement that writes one batch. -/
def batchRequest (batch : List (Key × Val)) : Request :=
  .sql (.run (.data (.setm (batch.map Prod.fst) (batch.map Prod.snd))))

/-- `pairs` cut into batches, none empty and none too long. -/
structure CutInto (pairs : List (Key × Val)) (batches : List (List (Key × Val))) : Prop where
  flatten : batches.flatten = pairs
  size : ∀ batch ∈ batches, 1 ≤ batch.length ∧ batch.length ≤ SETM_MAX_PAIRS

namespace CutInto

variable {pairs : List (Key × Val)} {batches : List (List (Key × Val))}

theorem nil : CutInto [] [] := ⟨rfl, by simp⟩

theorem single (hne : pairs ≠ []) (hle : pairs.length ≤ SETM_MAX_PAIRS) :
    CutInto pairs [pairs] := by
  refine ⟨by simp, fun batch hbatch ↦ ?_⟩
  rw [List.mem_singleton.mp hbatch]
  exact ⟨List.length_pos_iff.mpr hne, hle⟩

theorem cons (hne : pairs ≠ []) (h : CutInto (pairs.drop SETM_MAX_PAIRS) batches) :
    CutInto pairs (pairs.take SETM_MAX_PAIRS :: batches) := by
  refine ⟨by rw [List.flatten_cons, h.flatten, List.take_append_drop], fun batch hbatch ↦ ?_⟩
  rcases List.mem_cons.mp hbatch with rfl | hbatch
  · have hpos := List.length_pos_iff.mpr hne
    rw [List.length_take, SETM_MAX_PAIRS]
    omega
  · exact h.size batch hbatch

theorem nodup (h : CutInto pairs batches) (hn : (pairs.map Prod.fst).Nodup) :
    ∀ batch ∈ batches, (batch.map Prod.fst).Nodup := by
  rw [← h.flatten, List.map_flatten, List.nodup_flatten] at hn
  exact fun batch hbatch ↦ hn.1 _ (List.mem_map_of_mem hbatch)

/-- A key is in one batch if it is a key of the list, and in none otherwise. -/
theorem countP_key (h : CutInto pairs batches) (hn : (pairs.map Prod.fst).Nodup) (k : Key) :
    batches.countP (fun batch ↦ (batch.map Prod.fst).contains k) =
      if k ∈ pairs.map Prod.fst then 1 else 0 := by
  rw [← h.flatten] at hn ⊢
  clear h
  induction batches with
  | nil => simp
  | cons batch batches ih =>
    rw [List.flatten_cons, List.map_append, List.nodup_append] at hn
    obtain ⟨-, hrest, hdisj⟩ := hn
    rw [List.countP_cons, ih hrest, List.flatten_cons, List.map_append]
    by_cases hk : k ∈ batch.map Prod.fst
    · have hnot : k ∉ batches.flatten.map Prod.fst := fun hmem ↦ hdisj k hk k hmem rfl
      rw [if_neg hnot, if_pos (List.contains_iff_mem.mpr hk),
        if_pos (List.mem_append_left _ hk)]
    · have hiff : k ∈ batch.map Prod.fst ++ batches.flatten.map Prod.fst ↔
          k ∈ batches.flatten.map Prod.fst := by rw [List.mem_append, or_iff_right hk]
      simp only [hiff, List.contains_iff_mem, hk, if_false, Nat.add_zero]

end CutInto

/-! ## Deduplication leaves every key once -/

theorem nodup_dedupPairs (o : HashOrder) (pairs : List (Key × Val)) :
    ((PgTransaction.dedupPairs o pairs).map Prod.fst).Nodup := by
  rw [PgTransaction.dedupPairs]
  split_ifs with h₁ h₂
  · rcases Nat.le_one_iff_eq_zero_or_eq_one.mp h₁ with h | h
    · rw [List.length_eq_zero_iff.mp h]
      exact List.nodup_nil
    · obtain ⟨p, rfl⟩ := List.length_eq_one_iff.mp h
      exact List.nodup_singleton _
  · suffices ∀ result : List (Key × Val), (result.map Prod.fst).Nodup →
        ((pairs.foldl (fun result p ↦ PgTransaction.dedupInsert p result) result).map
          Prod.fst).Nodup from this [] List.nodup_nil
    clear h₁ h₂
    induction pairs with
    | nil => exact fun _ h ↦ h
    | cons p pairs ih => exact fun _ h ↦ ih _ (PgTransaction.nodup_dedupInsert p h)
  · exact ((o.perm _).map Prod.fst).nodup_iff.mpr (nodup_keys _)

theorem mem_keys_dedupPairs (o : HashOrder) (pairs : List (Key × Val)) (k : Key) :
    k ∈ (PgTransaction.dedupPairs o pairs).map Prod.fst ↔ k ∈ pairs.map Prod.fst := by
  rw [← not_iff_not, ← lastValue_eq_none_iff, ← lastValue_eq_none_iff,
    PgTransaction.lastValue_dedupPairs]

/-! ## What is sent and what is left -/

/-- The contents with `pairs` written, first to last. -/
def Database.writeAll (d : Database) (pairs : List (Key × Val)) : Database :=
  { d with kv := d.kv.upsertAll pairs }

theorem Database.writeAll_append (d : Database) (l m : List (Key × Val)) :
    d.writeAll (l ++ m) = (d.writeAll l).writeAll m := by
  rw [writeAll, Table.upsertAll_append]
  rfl

/-- Used on `c`, whose block is `b`, the program `f` succeeds; it sends just the batches, and leaves
their pairs written. -/
def SendsBatches (f : PgTransaction → Async (Result Unit)) (c : Client) (conn : TxConn)
    (b : Block Database) (batches : List (List (Key × Val))) : Prop :=
  (f c.tx).asked (Wire.answer calm) c.wire = batches.map batchRequest ∧
    ∃ c' : Client, c'.tx = c.tx ∧
      c'.Usable conn { b with cur := b.cur.writeAll batches.flatten } ∧
      (f c.tx).eval (Wire.answer calm) c.wire = (.ok (), c'.wire)

section Runs

variable {conn : TxConn}

theorem SendsBatches.congr {f g : PgTransaction → Async (Result Unit)} {c : Client}
    {b : Block Database} {batches : List (List (Key × Val))} (h : f c.tx = g c.tx)
    (hg : SendsBatches g c conn b batches) : SendsBatches f c conn b batches := by
  rw [SendsBatches, h]
  exact hg

theorem sends_nothing {c : Client} {b : Block Database} (h : c.Usable conn b) :
    SendsBatches (fun _ ↦ pure (.ok ())) c conn b [] :=
  ⟨rfl, c, rfl, h, rfl⟩

theorem query_asked {α : Type} {tx : PgTransaction} (hconn : tx.conn = some conn) (stmt : Stmt)
    (key : Option Key) (decode : Reply → Result α) (w : Wire) :
    (tx.query stmt key decode).asked (Wire.answer calm) w = [.sql (.run (.data stmt))] := by
  rw [PgTransaction.query, hconn]
  simp only [sendCommand, Dialogue.ask_bind, Dialogue.done_bind, Dialogue.asked]
  cases (w.answer calm (.sql (.run (.data stmt)))).1 <;> rfl

theorem setmBatch_sends {c : Client} {b : Block Database} (h : c.Usable conn b)
    {batch : List (Key × Val)} (hn : (batch.map Prod.fst).Nodup) :
    SendsBatches (fun tx ↦ tx.setmBatch batch) c conn b [batch] := by
  have hexec : (Stmt.setm (batch.map Prod.fst) (batch.map Prod.snd)).exec b.cur =
      .ok (⟨[], (batch.map Prod.fst).length⟩, b.cur.writeAll [batch].flatten) := by
    have hzip : batch = (batch.map Prod.fst).zip (batch.map Prod.snd) := List.zip_of_prod rfl rfl
    rw [Database.writeAll, List.flatten_singleton]
    conv_rhs => rw [hzip]
    simp [Stmt.exec, hn]
    rfl
  exact ⟨query_asked h.conn _ _ _ _, c.after b _, rfl, h.after _,
    PgTransaction.query_eval h rfl hexec⟩

theorem setmChunks_sends (pairs : List (Key × Val)) :
    ∀ {c : Client} {b : Block Database}, c.Usable conn b → (pairs.map Prod.fst).Nodup →
      ∃ batches, CutInto pairs batches ∧
        SendsBatches (fun tx ↦ tx.setmChunks pairs) c conn b batches := by
  induction pairs using PgTransaction.setmChunks.induct with
  | case1 =>
    intro c b h _
    refine ⟨[], .nil, (sends_nothing h).congr ?_⟩
    rw [PgTransaction.setmChunks, dif_pos rfl]
  | case2 pairs hne ih =>
    intro c b h hn
    have hcut : ((pairs.take SETM_MAX_PAIRS).map Prod.fst).Nodup :=
      ((List.take_sublist _ _).map _).nodup hn
    obtain ⟨hasked₁, c₁, htx₁, h₁, heval₁⟩ := setmBatch_sends h hcut
    obtain ⟨batches, hbatches, hasked₂, c₂, htx₂, h₂, heval₂⟩ :=
      ih h₁ (((List.drop_sublist _ _).map _).nodup hn)
    rw [htx₁] at hasked₂ heval₂
    refine ⟨_, .cons hne hbatches, ?_, c₂, htx₂.trans htx₁, ?_, ?_⟩
    · dsimp only
      rw [PgTransaction.setmChunks, dif_neg hne, Dialogue.asked_bind, heval₁, hasked₁]
      exact congrArg _ hasked₂
    · rw [List.flatten_cons, Database.writeAll_append]
      rwa [List.flatten_singleton] at h₂
    · dsimp only
      rw [PgTransaction.setmChunks, dif_neg hne, Dialogue.eval_bind, heval₁]
      exact heval₂

theorem dedupPairs_ne_nil (o : HashOrder) {pairs : List (Key × Val)} (hne : pairs ≠ []) :
    PgTransaction.dedupPairs o pairs ≠ [] := by
  obtain ⟨p, pairs, rfl⟩ := List.exists_cons_of_ne_nil hne
  have hmem := (mem_keys_dedupPairs o (p :: pairs) p.1).mpr List.mem_cons_self
  rintro hnil
  rw [hnil] at hmem
  exact List.not_mem_nil hmem

theorem setm_of_usable {c : Client} {b : Block Database} (h : c.Usable conn b) (o : HashOrder)
    {pairs : List (Key × Val)} (hne : pairs ≠ []) :
    c.tx.setm o pairs =
      if (PgTransaction.dedupPairs o pairs).length ≤ SETM_MAX_PAIRS then
        c.tx.setmBatch (PgTransaction.dedupPairs o pairs)
      else c.tx.setmChunks (PgTransaction.dedupPairs o pairs) := by
  have hempty : ¬pairs.isEmpty = true := by rwa [List.isEmpty_iff]
  rw [PgTransaction.setm, h.conn, Option.isNone_some, if_neg Bool.false_ne_true,
    PgTransaction.checkWriteable, h.writeable]
  exact if_neg hempty

theorem setm_nil {c : Client} {b : Block Database} (h : c.Usable conn b) (o : HashOrder) :
    c.tx.setm o [] = pure (.ok ()) := by
  rw [PgTransaction.setm, h.conn, Option.isNone_some, if_neg Bool.false_ne_true,
    PgTransaction.checkWriteable, h.writeable]
  rfl

/-- **What `setm` sends**: the deduplicated list, cut into batches. -/
theorem setm_sends {c : Client} {b : Block Database} (h : c.Usable conn b) (o : HashOrder)
    (pairs : List (Key × Val)) :
    ∃ batches, CutInto (PgTransaction.dedupPairs o pairs) batches ∧
      SendsBatches (fun tx ↦ tx.setm o pairs) c conn b batches := by
  have hn := nodup_dedupPairs o pairs
  by_cases hne : pairs = []
  · subst hne
    exact ⟨[], .nil, (sends_nothing h).congr (setm_nil h o)⟩
  · have hsetm := setm_of_usable h o hne
    by_cases hle : (PgTransaction.dedupPairs o pairs).length ≤ SETM_MAX_PAIRS
    · rw [if_pos hle] at hsetm
      exact ⟨[_], .single (dedupPairs_ne_nil o hne) hle, (setmBatch_sends h hn).congr hsetm⟩
    · rw [if_neg hle] at hsetm
      obtain ⟨batches, hcut, hsends⟩ := setmChunks_sends _ h hn
      exact ⟨batches, hcut, hsends.congr hsetm⟩

theorem sets_eval {c : Client} {b : Block Database} (h : c.Usable conn b)
    (pairs : List (Key × Val)) :
    ∃ c' : Client, c'.Usable conn { b with cur := b.cur.writeAll pairs } ∧
      serve (Client.perform calm) c (pairs.map fun p ↦ .set p.1 p.2) =
        (pairs.map fun _ ↦ .ok .unit, c') := by
  induction pairs generalizing c b with
  | nil => exact ⟨c, h, rfl⟩
  | cons p pairs ih =>
    have hexec : (Stmt.set p.1 p.2).exec b.cur = .ok (⟨[], 1⟩, b.cur.writeAll [p]) := rfl
    have hset : c.perform calm (.set p.1 p.2) = (.ok .unit, c.after b (b.cur.writeAll [p])) := by
      rw [Client.perform, Op.run, keeping, Dialogue.eval_map, PgTransaction.set,
        PgTransaction.writeQuery_of_writeable h.writeable, PgTransaction.query_eval h rfl hexec]
      rfl
    obtain ⟨c', hc', hserve⟩ := ih (h.after (b.cur.writeAll [p]))
    refine ⟨c', hc', ?_⟩
    rw [List.map_cons, serve, hset, hserve]
    rfl

/-- **`setm` is a sequence of sets.** On a usable transaction with nothing refused: it succeeds, as
do the sets; both leave the same contents in the same block; and what it sends is batches of 1 to
`SETM_MAX_PAIRS` pairs with distinct keys, every key of the list in exactly one of them. -/
theorem setm_eq_sets {c : Client} {b : Block Database} (h : c.Usable conn b) (o : HashOrder)
    (pairs : List (Key × Val)) :
    (c.perform calm (.setm o pairs)).1 = .ok .unit ∧
    (serve (Client.perform calm) c (pairs.map fun p ↦ .set p.1 p.2)).1 =
      (pairs.map fun _ ↦ .ok .unit) ∧
    (c.perform calm (.setm o pairs)).2.wire.session =
      (serve (Client.perform calm) c (pairs.map fun p ↦ .set p.1 p.2)).2.wire.session ∧
    ∃ batches : List (List (Key × Val)),
      (c.tx.setm o pairs).asked (Wire.answer calm) c.wire = batches.map batchRequest ∧
      (∀ batch ∈ batches, (1 ≤ batch.length ∧ batch.length ≤ SETM_MAX_PAIRS) ∧
        (batch.map Prod.fst).Nodup) ∧
      (∀ k, batches.countP (fun batch ↦ (batch.map Prod.fst).contains k) =
        if k ∈ pairs.map Prod.fst then 1 else 0) ∧
      (pairs = [] → batches = []) := by
  obtain ⟨batches, hcut, hasked, c₁, -, h₁, heval⟩ := setm_sends h o pairs
  obtain ⟨c₂, h₂, hserve⟩ := sets_eval h pairs
  have hn := nodup_dedupPairs o pairs
  have hperform : c.perform calm (.setm o pairs) = (.ok .unit, ⟨c.tx, c₁.wire⟩) := by
    rw [Client.perform, Op.run, keeping, Dialogue.eval_map, heval]
    rfl
  -- the batches hold the pairs left by the deduplication, which writes the same contents
  have hsame : b.cur.writeAll batches.flatten = b.cur.writeAll pairs := by
    rw [hcut.flatten, Database.writeAll, Database.writeAll, PgTransaction.upsertAll_dedupPairs]
  rw [hperform, hserve]
  refine ⟨rfl, rfl, ?_, batches, hasked, ?_, ?_, ?_⟩
  · rw [h₁.session, h₂.session, hsame]
  · exact fun batch hbatch ↦ ⟨hcut.size batch hbatch, hcut.nodup hn batch hbatch⟩
  · simp only [hcut.countP_key hn, mem_keys_dedupPairs, implies_true]
  · rintro rfl
    -- no batch is empty, so no batch is cut from nothing
    have hflat : batches.flatten = [] := hcut.flatten
    by_contra hne
    obtain ⟨batch, rest, rfl⟩ := List.exists_cons_of_ne_nil hne
    have hpos := (hcut.size batch List.mem_cons_self).1
    rw [List.flatten_cons, List.append_eq_nil_iff] at hflat
    rw [hflat.1] at hpos
    exact absurd hpos (by simp)

/-- Three pairs, two keys, one batch. -/
theorem setm_eq_sets_repeated :
    ((Client.opened .pooled ⟨∅, []⟩).perform calm
        (.setm ⟨id, fun _ ↦ .rfl⟩ [([1], [10]), ([2], [20]), ([1], [30])])).2.wire.session =
      (serve (Client.perform calm) (Client.opened .pooled ⟨∅, []⟩)
        [.set [1] [10], .set [2] [20], .set [1] [30]]).2.wire.session :=
  (setm_eq_sets (c := Client.opened .pooled ⟨∅, []⟩) ⟨rfl, rfl, rfl, rfl⟩ _ _).2.2.1

end Runs

end SurrealPg
