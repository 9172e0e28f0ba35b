import Mathlib.Data.List.Nodup
import SurrealPg.Transaction.Operation

/-!
# Batch writes

`setm` sends its pairs deduplicated and in chunks. Neither changes what is stored: deduplication
keeps the last value of every key whichever of its three paths it takes and in whatever order the
hash map is walked, and writing the chunks one after another is writing the whole list.

A chunk that fails stops the loop. The chunks before it stay written in the block, which by then
is aborted.
-/

namespace SurrealPg

open Postgres Semantics

/-! ## Last values of a list without repeated keys -/

section LastValue

variable {κ ν : Type} [LinearOrder κ]

theorem lastValue_cons (p : κ × ν) (pairs : List (κ × ν)) (k : κ) :
    Table.lastValue (p :: pairs) k =
      (Table.lastValue pairs k).or (if k = p.1 then some p.2 else none) := by
  rw [Table.lastValue, Table.lastValue, List.reverse_cons, List.lookup_append,
    Table.lookup_cons_eq_ite, List.lookup_nil]

theorem lastValue_eq_none_iff {pairs : List (κ × ν)} {k : κ} :
    Table.lastValue pairs k = none ↔ k ∉ pairs.map Prod.fst := by
  induction pairs with
  | nil => simp [Table.lastValue]
  | cons p pairs ih =>
    rw [lastValue_cons, Option.or_eq_none_iff, ih, List.map_cons, List.mem_cons, not_or, and_comm]
    by_cases hk : k = p.1 <;> simp [hk]

theorem lastValue_eq_some_iff {pairs : List (κ × ν)} (h : (pairs.map Prod.fst).Nodup) {k : κ}
    {v : ν} : Table.lastValue pairs k = some v ↔ (k, v) ∈ pairs := by
  induction pairs with
  | nil => simp [Table.lastValue]
  | cons p pairs ih =>
    rw [List.map_cons, List.nodup_cons] at h
    rw [lastValue_cons, List.mem_cons, Prod.ext_iff]
    by_cases hk : k = p.1
    · have hnot : (k, v) ∉ pairs := fun hmem ↦ h.1 (hk ▸ List.mem_map_of_mem hmem)
      rw [lastValue_eq_none_iff.mpr (hk ▸ h.1), if_pos hk, Option.none_or]
      simp [hk, hk ▸ hnot, eq_comm]
    · rw [if_neg hk, Option.or_none, ih h.2]
      simp [hk]

theorem lastValue_congr_of_perm {l m : List (κ × ν)} (hm : (m.map Prod.fst).Nodup)
    (h : l.Perm m) (k : κ) : Table.lastValue l k = Table.lastValue m k := by
  have hl : (l.map Prod.fst).Nodup := (h.map Prod.fst).nodup_iff.mpr hm
  refine Option.ext fun v ↦ ?_
  rw [lastValue_eq_some_iff hl, lastValue_eq_some_iff hm, h.mem_iff]

theorem nodup_keys (t : Table κ ν) : (t.rows.map Prod.fst).Nodup := by
  rw [List.nodup_iff_pairwise_ne, List.pairwise_map]
  exact t.sorted.imp fun h ↦ ne_of_lt h

theorem lastValue_rows (t : Table κ ν) (k : κ) : Table.lastValue t.rows k = t.get? k := by
  refine Option.ext fun v ↦ ?_
  rw [lastValue_eq_some_iff (nodup_keys t), Table.get?_eq_some_iff]

end LastValue

/-! ## Deduplication -/

namespace PgTransaction

theorem map_fst_dedupInsert (p : Key × Val) (result : List (Key × Val)) :
    (dedupInsert p result).map Prod.fst =
      if p.1 ∈ result.map Prod.fst then result.map Prod.fst
      else result.map Prod.fst ++ [p.1] := by
  induction result with
  | nil => rfl
  | cons q result ih =>
    rw [dedupInsert]
    by_cases h : q.1 = p.1
    · rw [if_pos h, if_pos (by rw [← h]; exact List.mem_cons_self)]
      rfl
    · have hiff : p.1 ∈ (q :: result).map Prod.fst ↔ p.1 ∈ result.map Prod.fst := by
        rw [List.map_cons, List.mem_cons, or_iff_right (Ne.symm h)]
      rw [if_neg h, List.map_cons, ih]
      by_cases hmem : p.1 ∈ result.map Prod.fst
      · rw [if_pos hmem, if_pos (hiff.mpr hmem), List.map_cons]
      · rw [if_neg hmem, if_neg (mt hiff.mp hmem), List.map_cons, List.cons_append]

theorem nodup_dedupInsert (p : Key × Val) {result : List (Key × Val)}
    (h : (result.map Prod.fst).Nodup) : ((dedupInsert p result).map Prod.fst).Nodup := by
  rw [map_fst_dedupInsert]
  split_ifs with hmem
  · exact h
  · rw [List.nodup_append]
    refine ⟨h, List.nodup_singleton _, fun a ha b hb ↦ ?_⟩
    rw [List.mem_singleton] at hb
    rintro rfl
    exact hmem (hb ▸ ha)

theorem lastValue_dedupInsert (p : Key × Val) {result : List (Key × Val)}
    (h : (result.map Prod.fst).Nodup) (k : Key) :
    Table.lastValue (dedupInsert p result) k =
      if k = p.1 then some p.2 else Table.lastValue result k := by
  induction result with
  | nil =>
    rw [dedupInsert, lastValue_cons]
    by_cases hk : k = p.1
    · rw [if_pos hk, if_pos hk]
      rfl
    · rw [if_neg hk, if_neg hk]
      rfl
  | cons q result ih =>
    rw [List.map_cons, List.nodup_cons] at h
    rw [dedupInsert]
    by_cases hq : q.1 = p.1
    · rw [if_pos hq, lastValue_cons, lastValue_cons]
      by_cases hk : k = p.1
      · rw [lastValue_eq_none_iff.mpr (by rw [hk, ← hq]; exact h.1), if_pos hk,
          if_pos (hk.trans hq.symm), Option.none_or]
      · have hkq : k ≠ q.1 := fun hk' ↦ hk (hk'.trans hq)
        rw [if_neg hk, if_neg hkq, if_neg hkq]
    · rw [if_neg hq, lastValue_cons, lastValue_cons, ih h.2]
      by_cases hk : k = p.1
      · rw [if_pos hk, if_pos hk, Option.some_or]
      · rw [if_neg hk, if_neg hk]

private theorem linear_dedup (pairs result : List (Key × Val))
    (h : (result.map Prod.fst).Nodup) (k : Key) :
    Table.lastValue (pairs.foldl (fun result p ↦ dedupInsert p result) result) k =
      (Table.lastValue pairs k).or (Table.lastValue result k) := by
  induction pairs generalizing result with
  | nil => rfl
  | cons p pairs ih =>
    rw [List.foldl_cons, ih _ (nodup_dedupInsert p h), lastValue_dedupInsert p h, lastValue_cons,
      Option.or_assoc]
    by_cases hk : k = p.1
    · rw [if_pos hk, if_pos hk, Option.some_or]
    · rw [if_neg hk, if_neg hk, Option.none_or]

/-- **Deduplication keeps every last value.** -/
theorem lastValue_dedupPairs (o : HashOrder) (pairs : List (Key × Val)) (k : Key) :
    Table.lastValue (dedupPairs o pairs) k = Table.lastValue pairs k := by
  rw [dedupPairs]
  split_ifs
  · rfl
  · rw [linear_dedup pairs [] List.nodup_nil]
    exact Option.or_none
  · rw [lastValue_congr_of_perm (nodup_keys _) (o.perm _), lastValue_rows, Table.get?_upsertAll,
      Table.get?_empty, Option.or_none]

theorem upsertAll_dedupPairs (t : Table Key Val) (o : HashOrder) (pairs : List (Key × Val)) :
    t.upsertAll (dedupPairs o pairs) = t.upsertAll pairs :=
  t.upsertAll_congr (lastValue_dedupPairs o pairs)

/-! ## Sending the batches -/

variable {faults : ℕ → Option SqlxError} {tx : PgTransaction} {conn : TxConn} {w : Wire}
  {b : Block Database}

variable (faults) in
theorem setmBatch_cases (hconn : tx.conn = some conn) (hw : w.session = .inBlock b)
    (pairs : List (Key × Val)) :
    ∃ r w' b', (tx.setmBatch pairs).eval (Wire.answer faults) w = (r, w') ∧
      w'.session = .inBlock b' ∧
      ((∃ e, r = .error e ∧ b' = { b with aborted := true }) ∨
        (r = .ok () ∧ b.aborted = false ∧
          ∃ d, b' = { b with cur := d } ∧ d.kv = b.cur.kv.upsertAll pairs)) := by
  obtain ⟨r, w', b', hev, hs, hcases⟩ := query_cases faults
    (.setm (pairs.map Prod.fst) (pairs.map Prod.snd)) none (fun _ ↦ .ok ()) hconn hw
  refine ⟨r, w', b', hev, hs, hcases.imp_right ?_⟩
  rintro ⟨p, d, hab, hexec, hr, hb⟩
  refine ⟨hr, hab, d, hb, ?_⟩
  simp only [Stmt.exec] at hexec
  split_ifs at hexec
  obtain ⟨-, rfl⟩ := Prod.mk.inj (Except.ok.inj hexec)
  exact congrArg b.cur.kv.upsertAll (List.zip_of_prod rfl rfl).symm

theorem setmChunks_cases (hconn : tx.conn = some conn) (pairs : List (Key × Val)) :
    ∀ {w : Wire} {b : Block Database}, w.session = .inBlock b →
      ∃ r w' b', (tx.setmChunks pairs).eval (Wire.answer faults) w = (r, w') ∧
        w'.session = .inBlock b' ∧
        ((∃ e d, r = .error e ∧ b' = { b with cur := d, aborted := true }) ∨
          (r = .ok () ∧ ∃ d, b' = { b with cur := d } ∧
            d.kv = b.cur.kv.upsertAll pairs)) := by
  induction pairs using setmChunks.induct with
  | case1 =>
    intro w b hw
    rw [setmChunks, dif_pos rfl]
    exact ⟨_, w, b, rfl, hw, Or.inr ⟨rfl, b.cur, rfl, rfl⟩⟩
  | case2 pairs hne ih =>
    intro w b hw
    rw [setmChunks, dif_neg hne]
    obtain ⟨r, w₁, b₁, hev, hs, hcases⟩ :=
      setmBatch_cases faults hconn hw (pairs.take SETM_MAX_PAIRS)
    rw [Dialogue.eval_bind, hev]
    rcases hcases with ⟨e, rfl, rfl⟩ | ⟨rfl, hab, d, rfl, hd⟩
    · exact ⟨_, w₁, _, rfl, hs, Or.inl ⟨e, b.cur, rfl, rfl⟩⟩
    · obtain ⟨r, w₂, b₂, hev₂, hs₂, hcases₂⟩ := ih hs
      refine ⟨r, w₂, b₂, hev₂, hs₂, hcases₂.imp_right ?_⟩
      rintro ⟨rfl, d', rfl, hd'⟩
      refine ⟨rfl, d', rfl, ?_⟩
      rw [hd', hd, ← Table.upsertAll_append, List.take_append_drop]

variable (faults) in
/-- **A batch write.** When it succeeds, the whole list has been written in order; when it fails,
the block is aborted with some of the chunks written. -/
theorem setm_cases (hconn : tx.conn = some conn) (hwr : tx.writeable = true)
    (hw : w.session = .inBlock b) (o : HashOrder) (pairs : List (Key × Val)) :
    ∃ r w' b', (tx.setm o pairs).eval (Wire.answer faults) w = (r, w') ∧
      w'.session = .inBlock b' ∧
      ((∃ e d, r = .error e ∧ b' = { b with cur := d, aborted := true }) ∨
        (r = .ok () ∧ ∃ d, b' = { b with cur := d } ∧ d.kv = b.cur.kv.upsertAll pairs)) := by
  rw [setm, hconn, Option.isNone_some, if_neg Bool.false_ne_true, checkWriteable, hwr]
  by_cases hp : pairs = []
  · subst hp
    exact ⟨_, w, b, rfl, hw, Or.inr ⟨rfl, b.cur, rfl, rfl⟩⟩
  · have hempty : ¬pairs.isEmpty = true := by rwa [List.isEmpty_iff]
    simp only [Bool.not_true, if_neg Bool.false_ne_true, if_neg hempty]
    rw [← upsertAll_dedupPairs b.cur.kv o pairs]
    split_ifs
    · obtain ⟨r, w', b', hev, hs, hcases⟩ :=
        setmBatch_cases faults hconn hw (dedupPairs o pairs)
      refine ⟨r, w', b', hev, hs, hcases.imp ?_ ?_⟩
      · rintro ⟨e, rfl, rfl⟩
        exact ⟨e, b.cur, rfl, rfl⟩
      · rintro ⟨rfl, -, d, rfl, hd⟩
        exact ⟨rfl, d, rfl, hd⟩
    · exact setmChunks_cases hconn _ hw

end PgTransaction

end SurrealPg
