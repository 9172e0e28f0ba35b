import SurrealPg.PgTx.Accounting
import SurrealPg.Store.Life

/-!
# The metric identity

`tx_started`, `tx_committed` and `tx_rolled_back` over all transactions of a store that were begun
through `new_transaction`. Each transaction is counted as started when it is begun. It gets its
entry in one of the other two when a commit or cancel has been answered, or from the destructor of
a `PgTx` on which none was ever claimed.

So no transaction has more than one entry. One has none although it was dropped: the one whose
commit or cancel was dropped while `COMMIT` or `ROLLBACK` was on its way. Then the flag is up, so
the destructor leaves the entry to a call that does not exist any more.

The counters are machine words and wrap around. What is said of them as numbers supposes that fewer
than `2 ^ 64` transactions were begun.
-/

namespace SurrealPg

open Semantics RosterEvent

variable {ι : Type} [DecidableEq ι]

/-! ## One `PgTx` and its destructor -/

/-- A `PgTx` that `new_transaction` has returned, with all calls ever made on it. -/
structure Handle (ι : Type) where
  write : Bool
  pool : TxPool ι
  dropped : Bool

/-- What happens to a `PgTx`. -/
inductive HandleEvent (ι : Type)
  | call (e : TxEvent ι)
  /-- The destructor ran; whether it counted the transaction as rolled back, and whether that of the
  inner transaction lowered `tx_active`. -/
  | dropped (counted released : Bool)

namespace HandleEvent

/-- A transaction was counted as committed or rolled back. -/
def isEntry : HandleEvent ι → Bool
  | call e => e.isEntry
  | dropped counted _ => counted

/-- A commit or cancel was dropped while `COMMIT` or `ROLLBACK` was on its way. -/
def isLost : HandleEvent ι → Bool
  | call e => e.isLost
  | dropped .. => false

/-- An entry that was made or lost. -/
def isSettled (e : HandleEvent ι) : Bool := e.isEntry || e.isLost

end HandleEvent

namespace Handle

/-- `PgTx::new` -/
def new (write : Bool) (tx : PgTransaction) : Handle ι :=
  ⟨write, Pool.start ⟨some tx, false, none⟩, false⟩

/-- What the destructor of a `PgTx` does, and that of the transaction if it is still there. -/
def destructor (m : TxMem ι) : HandleEvent ι :=
  .dropped (!m.done) (m.inner.any fun tx ↦ tx.dropReleases == 1)

/-- The calls of a `PgTx` borrow it, so it is dropped when none of them is under way. -/
inductive Step : Handle ι → HandleEvent ι → Handle ι → Prop
  | call {write : Bool} {pool pool' : TxPool ι} (e : TxEvent ι) :
    Pool.Step (txServer ι) (Call.code write) pool e pool' →
    Step ⟨write, pool, false⟩ (.call e) ⟨write, pool', false⟩
  | drop {write : Bool} {pool : TxPool ι} : (∀ i, ¬pool.Waiting i fun _ ↦ True) →
    Step ⟨write, pool, false⟩ (destructor pool.mem) ⟨write, pool, true⟩

/-- The history of a `PgTx`: the calls made on it are a run of their own, which the destructor
ends. -/
def Told (write : Bool) (conn : TxConn) (h : List (HandleEvent ι)) (b : Handle ι) : Prop :=
  b.write = write ∧ ∃ tr,
    Run (Pool.Step (txServer ι) (Call.code write)) (Pool.start (.opened conn write)) tr b.pool ∧
      if b.dropped then (∀ i, ¬b.pool.Waiting i fun _ ↦ True) ∧
        h = tr.map .call ++ [destructor b.pool.mem]
      else h = tr.map .call

omit [DecidableEq ι] in
theorem isSettled_destructor (m : TxMem ι) : (destructor m).isSettled = !m.done :=
  Bool.or_false _

theorem told_of_run {write : Bool} {conn : TxConn} {h : List (HandleEvent ι)} {b : Handle ι}
    (hrun : Run Step (new write ⟨some conn, write, 0, []⟩) h b) : Told write conn h b := by
  refine hrun.invariant (I := Told write conn) ⟨rfl, [], .nil, if_neg Bool.false_ne_true ▸ rfl⟩ ?_
  rintro h b e b' ⟨hwrite, tr, hpool, hh⟩ hstep
  cases hstep with
  | call e hstep =>
    obtain rfl := hwrite
    refine ⟨rfl, tr ++ [e], hpool.snoc hstep, ?_⟩
    rw [if_neg Bool.false_ne_true] at hh ⊢
    rw [hh, List.map_append]
    rfl
  | drop hquiet =>
    refine ⟨hwrite, tr, hpool, ?_⟩
    rw [if_neg Bool.false_ne_true] at hh
    rw [if_pos rfl, hh]
    exact ⟨hquiet, rfl⟩

/-- **One `PgTx`** has at most one entry, made or lost, and has it once it was dropped. -/
theorem entries_of_run {write : Bool} {conn : TxConn} {h : List (HandleEvent ι)} {b : Handle ι}
    (hrun : Run Step (new write ⟨some conn, write, 0, []⟩) h b) :
    h.countP HandleEvent.isSettled ≤ 1 ∧
      (b.dropped = true → h.countP HandleEvent.isSettled = 1) := by
  obtain ⟨-, tr, hpool, hh⟩ := told_of_run hrun
  obtain ⟨hle, hquiet⟩ := accounted_of_run hpool
  have hmap : (tr.map HandleEvent.call).countP HandleEvent.isSettled =
      tr.countP TxEvent.isSettled := List.countP_map ..
  cases hd : b.dropped with
  | false =>
    rw [hd, if_neg Bool.false_ne_true] at hh
    rw [hh, hmap]
    exact ⟨hle.trans (Bool.toNat_le _), nofun⟩
  | true =>
    rw [hd, if_pos rfl] at hh
    obtain ⟨hwaiting, rfl⟩ := hh
    have hone : (tr.map HandleEvent.call ++ [destructor b.pool.mem]).countP
        HandleEvent.isSettled = 1 := by
      rw [countP_snoc, hmap, hquiet hwaiting, isSettled_destructor]
      cases b.pool.mem.done <;> rfl
    exact ⟨Nat.le_of_eq hone, fun _ ↦ hone⟩

end Handle

/-! ## The store -/

/-- The counters of a store. -/
structure TxCounters where
  started : UInt64
  committed : UInt64
  rolledBack : UInt64
  active : UInt64
  deriving DecidableEq

def TxCounters.zero : TxCounters := ⟨0, 0, 0, 0⟩

/-- Every transaction of a store with the counters all of them share. -/
abbrev MetricStore (ι : Type) := Roster (Life (Handle ι)) TxCounters

namespace MetricStore

/-- What an event does to the counters. A call dropped while `COMMIT` or `ROLLBACK` is on its way
has a guard, which lowers `tx_active`. -/
def effect (e : LifeEvent (HandleEvent ι)) (n : TxCounters) : TxCounters :=
  match e with
  | .asked .addStarted => { n with started := n.started + 1 }
  | .asked .addActive => { n with active := n.active + 1 }
  | .did (.call (.answered _ .addCommitted _)) => { n with committed := n.committed + 1 }
  | .did (.call (.answered _ .addRolledBack _)) => { n with rolledBack := n.rolledBack + 1 }
  | .did (.call (.answered _ (.tx .releaseActive) _)) => { n with active := n.active - 1 }
  | .did (.call (.abandoned _ q)) => if q.isClose then { n with active := n.active - 1 } else n
  | .did (.dropped counted released) =>
    { n with
      rolledBack := if counted then n.rolledBack + 1 else n.rolledBack
      active := if released then n.active - 1 else n.active }
  | _ => n

/-- A store whose transactions are begun with `new_transaction`, used by any tasks and dropped. -/
abbrev Step (s : PgStore) :
    MetricStore ι → RosterEvent (LifeEvent (HandleEvent ι)) → MetricStore ι → Prop :=
  Roster.Step (Life.New s) (Life.Step Handle.new Handle.Step) effect

/-- `tx_committed.fetch_add(1, ..)` -/
def isCommitted : LifeEvent (HandleEvent ι) → Bool
  | .did (.call (.answered _ .addCommitted _)) => true
  | _ => false

/-- `tx_rolled_back.fetch_add(1, ..)` -/
def isRolledBack : LifeEvent (HandleEvent ι) → Bool
  | .did (.call (.answered _ .addRolledBack _)) => true
  | .did (.dropped counted _) => counted
  | _ => false

/-- A transaction was counted as committed or rolled back. -/
def isEntry : LifeEvent (HandleEvent ι) → Bool
  | .did e => e.isEntry
  | _ => false

/-- A commit or cancel was dropped while `COMMIT` or `ROLLBACK` was on its way. -/
def isLost : LifeEvent (HandleEvent ι) → Bool
  | .did e => e.isLost
  | _ => false

/-- An entry that was made or lost. -/
def isSettled (e : LifeEvent (HandleEvent ι)) : Bool := isEntry e || isLost e

/-- There is no `PgTx`, and none is about to be returned by a `begin` that has been counted. -/
def IsOver : Life (Handle ι) → Prop
  | .beginning _ (.ask .addActive _ _) => False
  | .beginning _ (.done (.ok _)) => False
  | .beginning .. | .fruitless => True
  | .owned b => b.dropped = true

/-- The law: never more entries than transactions, and as many once every `PgTx` was dropped. -/
def MetricIdentity (r : MetricStore ι) : Prop :=
  r.shared.committed.toNat + r.shared.rolledBack.toNat ≤ r.shared.started.toNat ∧
    ((∀ x ∈ r.party, IsOver x) →
      r.shared.started.toNat = r.shared.committed.toNat + r.shared.rolledBack.toNat)

variable {s : PgStore} {tr : List (RosterEvent (LifeEvent (HandleEvent ι)))} {r : MetricStore ι}

omit [DecidableEq ι] in
theorem effect_counts (e : LifeEvent (HandleEvent ι)) (n : TxCounters) :
    (effect e n).started = (if e.isStart then n.started + 1 else n.started) ∧
      (effect e n).committed = (if isCommitted e then n.committed + 1 else n.committed) ∧
        (effect e n).rolledBack = if isRolledBack e then n.rolledBack + 1 else n.rolledBack := by
  rcases e with q | q | _ | _ | (e | ⟨counted, released⟩)
  · cases q <;> exact ⟨rfl, rfl, rfl⟩
  · exact ⟨rfl, rfl, rfl⟩
  · exact ⟨rfl, rfl, rfl⟩
  · exact ⟨rfl, rfl, rfl⟩
  · rcases e with _ | ⟨i, q, r⟩ | ⟨i, q⟩
    · exact ⟨rfl, rfl, rfl⟩
    · rcases q with _ | _ | _ | _ | _ | _ | _ | _ | _ | (_ | _) <;> exact ⟨rfl, rfl, rfl⟩
    · have heffect : effect (.did (.call (.abandoned i q))) n =
          if q.isClose then { n with active := n.active - 1 } else n := rfl
      rw [heffect]
      cases q.isClose <;> exact ⟨rfl, rfl, rfl⟩
  · exact ⟨rfl, rfl, rfl⟩

theorem counter_of_run (h : Run (Step s) (Roster.start .zero) tr r) {get : TxCounters → UInt64}
    {P : LifeEvent (HandleEvent ι) → Bool} (hget : get .zero = 0)
    (heffect : ∀ e n, get (effect e n) = if P e then get n + 1 else get n) :
    get r.shared = UInt64.ofNat (tr.countP (shows P)) := by
  refine h.invariant (I := fun tr r ↦ get r.shared = UInt64.ofNat (tr.countP (shows P))) hget ?_
  rintro tr r e r' ih hstep
  cases hstep with
  | join x hx =>
    rw [countP_append_joined]
    exact ih
  | act k e x' hk hact =>
    rw [countP_append_acted, heffect]
    cases P e with
    | false => exact ih
    | true =>
      rw [if_pos rfl, ih, Bool.toNat_true, UInt64.ofNat_add]
      rfl

theorem shared_of_run (h : Run (Step s) (Roster.start .zero) tr r) :
    r.shared.started = UInt64.ofNat (tr.countP (shows LifeEvent.isStart)) ∧
      r.shared.committed = UInt64.ofNat (tr.countP (shows isCommitted)) ∧
        r.shared.rolledBack = UInt64.ofNat (tr.countP (shows isRolledBack)) :=
  ⟨counter_of_run h rfl fun e n ↦ (effect_counts e n).1,
    counter_of_run h rfl fun e n ↦ (effect_counts e n).2.1,
    counter_of_run h rfl fun e n ↦ (effect_counts e n).2.2⟩

omit [DecidableEq ι] in
theorem isRolledBack_eq_false {e : RosterEvent (LifeEvent (HandleEvent ι))}
    (he : shows isCommitted e = true) : shows isRolledBack e = false := by
  match e with
  | .acted _ (.did (.call (.answered _ .addCommitted _))) => rfl

omit [DecidableEq ι] in
theorem countP_isEntry (tr : List (RosterEvent (LifeEvent (HandleEvent ι)))) :
    tr.countP (shows isEntry) =
      tr.countP (shows isCommitted) + tr.countP (shows isRolledBack) := by
  rw [← countP_or fun e he ↦ isRolledBack_eq_false he]
  refine List.countP_congr fun e _ ↦ ?_
  rcases e with _ | ⟨_, q | q | _ | _ | (e | _)⟩
  · rfl
  · rfl
  · rfl
  · rfl
  · rfl
  · rcases e with _ | ⟨_, q, _⟩ | _
    · rfl
    · cases q <;> rfl
    · rfl
  · rfl

omit [DecidableEq ι] in
theorem countP_isSettled_life (h : List (LifeEvent (HandleEvent ι))) :
    h.countP isSettled = (h.filterMap LifeEvent.deed).countP HandleEvent.isSettled := by
  rw [List.countP_filterMap]
  refine List.countP_congr fun e _ ↦ ?_
  cases e <;> simp [isSettled, isEntry, isLost, HandleEvent.isSettled, LifeEvent.deed]

omit [DecidableEq ι] in
theorem not_started_of_over {write : Bool} {φ : BeginPhase}
    {d : StoreAsync (Result PgTransaction)} (h : PgStore.Begins s.mode write φ d)
    (hover : IsOver (.beginning write d : Life (Handle ι))) : φ.isStarted = false := by
  cases d with
  | done r =>
    rcases r with e | tx
    · cases φ <;> first | rfl | exact h.elim | exact nomatch h.choose_spec
    · exact hover.elim
  | ask q u next =>
    obtain ⟨hmay, -⟩ := h
    cases hmay with
    | look hφ => obtain rfl | rfl := hφ <;> rfl
    | countActive => exact hover.elim
    | _ => rfl

/-- **One life** settles at most as often as it starts, and as often once it is over. -/
theorem settled_le_started {x₀ x : Life (Handle ι)} {h : List (LifeEvent (HandleEvent ι))}
    (hnew : Life.New s x₀) (hrun : Run (Life.Step Handle.new Handle.Step) x₀ h x) :
    h.countP isSettled ≤ h.countP LifeEvent.isStart ∧
      (IsOver x → h.countP isSettled + 0 = h.countP LifeEvent.isStart) := by
  have htold := Life.told_of_run hnew hrun
  rw [countP_isSettled_life]
  cases x with
  | beginning write d =>
    obtain ⟨φ, hbegins, hstart, -, hdeed⟩ := htold
    rw [hstart, hdeed]
    refine ⟨Nat.zero_le _, fun hover ↦ ?_⟩
    rw [not_started_of_over hbegins hover]
    rfl
  | fruitless =>
    obtain ⟨hstart, -, hdeed⟩ := htold
    rw [hstart, hdeed]
    exact ⟨Nat.le_refl 0, fun _ ↦ rfl⟩
  | owned b =>
    obtain ⟨hstart, -, conn, write, hrun'⟩ := htold
    rw [hstart]
    exact Handle.entries_of_run hrun'

omit [DecidableEq ι] in
theorem isLost_eq_false {e : RosterEvent (LifeEvent (HandleEvent ι))}
    (he : shows isEntry e = true) : shows isLost e = false := by
  match e with
  | .acted k (.did (.call e)) => exact TxEvent.isLost_eq_false he
  | .acted k (.did (.dropped ..)) => rfl
  | .joined | .acted k (.asked _) | .acted k (.abandoned _) | .acted k .failed
  | .acted k .returned => rfl

end MetricStore

open MetricStore

namespace MetricStore

theorem settled_of_run {s : PgStore} {tr : List (RosterEvent (LifeEvent (HandleEvent ι)))}
    {r : MetricStore ι} (h : Run (Step s) (Roster.start .zero) tr r) :
    tr.countP (shows isCommitted) + tr.countP (shows isRolledBack) + tr.countP (shows isLost) ≤
        tr.countP (shows LifeEvent.isStart) ∧
      ((∀ x ∈ r.party, IsOver x) →
        tr.countP (shows isCommitted) + tr.countP (shows isRolledBack) + tr.countP (shows isLost) =
          tr.countP (shows LifeEvent.isStart)) := by
  have hlife : ∀ k x, r.party[k]? = some x →
      (history k tr).countP isSettled ≤ (history k tr).countP LifeEvent.isStart ∧
        (IsOver x →
          (history k tr).countP isSettled + 0 = (history k tr).countP LifeEvent.isStart) := by
    intro k x hk
    obtain ⟨x₀, hnew, hrun⟩ := (Roster.party_run h).1 k x hk
    exact settled_le_started hnew hrun
  have hsettled : tr.countP (shows isSettled) =
      tr.countP (shows isEntry) + tr.countP (shows isLost) := by
    rw [← countP_or fun e he ↦ isLost_eq_false he]
    refine List.countP_congr fun e _ ↦ ?_
    cases e <;> simp [shows, isSettled]
  rw [← countP_isEntry, ← hsettled]
  refine ⟨Roster.countP_le_countP h fun k x hk ↦ (hlife k x hk).1, fun hover ↦ ?_⟩
  have hall := Roster.countP_add_sum (w := fun _ ↦ 0) h fun k x hk ↦
    (hlife k x hk).2 (hover x (List.mem_of_getElem? hk))
  rwa [List.map_const', List.sum_replicate, nsmul_zero, Nat.add_zero] at hall

/-- Fewer than `2 ^ 64` transactions were begun. -/
def FewBegun (tr : List (RosterEvent (LifeEvent (HandleEvent ι)))) : Prop :=
  tr.countP (shows LifeEvent.isStart) < 2 ^ 64

theorem toNat_of_run {s : PgStore} {tr : List (RosterEvent (LifeEvent (HandleEvent ι)))}
    {r : MetricStore ι} (h : Run (Step s) (Roster.start .zero) tr r) (hc : FewBegun tr) :
    r.shared.started.toNat = tr.countP (shows LifeEvent.isStart) ∧
      r.shared.committed.toNat = tr.countP (shows isCommitted) ∧
        r.shared.rolledBack.toNat = tr.countP (shows isRolledBack) := by
  obtain ⟨hstart, hcommitted, hrolledBack⟩ := shared_of_run h
  have hle := (settled_of_run h).1
  rw [FewBegun] at hc
  rw [hstart, hcommitted, hrolledBack]
  exact ⟨UInt64.toNat_ofNat_of_lt' hc, UInt64.toNat_ofNat_of_lt' (lt_of_le_of_lt (by omega) hc),
    UInt64.toNat_ofNat_of_lt' (lt_of_le_of_lt (by omega) hc)⟩

theorem entries_le_started {s : PgStore} {tr : List (RosterEvent (LifeEvent (HandleEvent ι)))}
    {r : MetricStore ι} (h : Run (Step s) (Roster.start .zero) tr r) (hc : FewBegun tr) :
    r.shared.committed.toNat + r.shared.rolledBack.toNat ≤ r.shared.started.toNat := by
  obtain ⟨hstart, hcommitted, hrolledBack⟩ := toNat_of_run h hc
  rw [hstart, hcommitted, hrolledBack]
  exact (Nat.le_add_right ..).trans (settled_of_run h).1

theorem ofNat_eq_zero_iff (n : ℕ) : UInt64.ofNat n = 0 ↔ 2 ^ 64 ∣ n := by
  rw [← UInt64.toNat_inj, UInt64.toNat_ofNat', UInt64.toNat_zero, Nat.dvd_iff_mod_eq_zero]

end MetricStore

/-- **The metric identity.** As long as fewer than `2 ^ 64` transactions are begun, there are never
more entries than transactions, and once every `PgTx` was dropped there are as many, exactly if no
commit or cancel was dropped while its `COMMIT` or `ROLLBACK` was on its way. In machine words there
are as many exactly if the commits and cancels so dropped are a multiple of `2 ^ 64`. -/
theorem metricIdentity_of_run {s : PgStore}
    {tr : List (RosterEvent (LifeEvent (HandleEvent ι)))} {r : MetricStore ι}
    (h : Run (MetricStore.Step s) (Roster.start .zero) tr r) :
    (FewBegun tr →
      r.shared.committed.toNat + r.shared.rolledBack.toNat ≤ r.shared.started.toNat ∧
      ((∀ x ∈ r.party, IsOver x) →
        (r.shared.started.toNat = r.shared.committed.toNat + r.shared.rolledBack.toNat ↔
          ∀ e ∈ tr, shows isLost e = false))) ∧
    ((∀ x ∈ r.party, IsOver x) →
      (r.shared.started = r.shared.committed + r.shared.rolledBack ↔
        2 ^ 64 ∣ tr.countP (shows isLost))) := by
  obtain ⟨hle, hover⟩ := settled_of_run h
  refine ⟨fun hc ↦ ?_, fun hall ↦ ?_⟩
  · refine ⟨entries_le_started h hc, fun hall ↦ ?_⟩
    obtain ⟨hstart, hcommitted, hrolledBack⟩ := toNat_of_run h hc
    rw [hstart, hcommitted, hrolledBack]
    have hlost : (∀ e ∈ tr, shows isLost e = false) ↔ tr.countP (shows isLost) = 0 := by
      rw [List.countP_eq_zero]
      simp only [Bool.not_eq_true]
    rw [hlost, ← hover hall]
    exact Nat.add_eq_left
  · obtain ⟨hstart, hcommitted, hrolledBack⟩ := shared_of_run h
    rw [hstart, hcommitted, hrolledBack, ← hover hall, UInt64.ofNat_add, UInt64.ofNat_add,
      ← ofNat_eq_zero_iff]
    exact UInt64.add_eq_left

theorem isStart_le_one {s : PgStore} {x₀ x : Life (Handle ι)} {h : List (LifeEvent (HandleEvent ι))}
    (hnew : Life.New s x₀) (hrun : Run (Life.Step Handle.new Handle.Step) x₀ h x) :
    h.countP LifeEvent.isStart ≤ 1 := by
  have htold := Life.told_of_run hnew hrun
  cases x with
  | beginning write d =>
    obtain ⟨φ, -, hstart, -⟩ := htold
    rw [hstart]
    exact Bool.toNat_le _
  | fruitless =>
    rw [htold.1]
    exact Nat.zero_le 1
  | owned b => rw [htold.1]

theorem countP_isStart_le {s : PgStore} {tr : List (RosterEvent (LifeEvent (HandleEvent ι)))}
    {r : MetricStore ι} (h : Run (MetricStore.Step s) (Roster.start .zero) tr r) :
    tr.countP (shows LifeEvent.isStart) ≤ r.party.length := by
  have hone : ∀ k ∈ Finset.range r.party.length, (history k tr).countP LifeEvent.isStart ≤ 1 := by
    intro k hk
    have hlt := Finset.mem_range.mp hk
    obtain ⟨x₀, hnew, hrun⟩ := (Roster.party_run h).1 k _ (List.getElem?_eq_getElem hlt)
    exact isStart_le_one hnew hrun
  calc tr.countP (shows LifeEvent.isStart)
      = ∑ k ∈ Finset.range r.party.length, (history k tr).countP LifeEvent.isStart :=
        Roster.countP_eq_sum h _
    _ ≤ ∑ _k ∈ Finset.range r.party.length, 1 := Finset.sum_le_sum hone
    _ = r.party.length := by rw [Finset.sum_const, Finset.card_range, smul_eq_mul, Nat.mul_one]

/-- A store with one transaction, on which calls are made until it is dropped. -/
theorem run_one {es : List (TxEvent ι)} {p : TxPool ι}
    (h : Run (Pool.Step (txServer ι) (Call.code true)) (Pool.start (.opened .pooled true)) es p)
    (hquiet : ∀ i, ¬p.Waiting i fun _ ↦ True) :
    ∃ tr, Run (MetricStore.Step (.withDefaults .pooled)) (Roster.start .zero) tr
      ⟨(es.map HandleEvent.call ++ [Handle.destructor p.mem]).foldl
        (fun n e ↦ effect (.did e) n) ⟨1, 0, 0, 1⟩, [.owned ⟨true, p, true⟩]⟩ ∧
      FewBegun tr := by
  have hcalls : Run Handle.Step (⟨true, Pool.start (.opened .pooled true), false⟩ : Handle ι)
      (es.map HandleEvent.call) ⟨true, p, false⟩ :=
    h.map (fun pool ↦ (⟨true, pool, false⟩ : Handle ι)) HandleEvent.call fun _ _ _ h ↦ .call _ h
  have howned : Run (Life.Step Handle.new Handle.Step)
      (.owned ⟨true, Pool.start (.opened .pooled true), false⟩ : Life (Handle ι)) _ _ :=
    (hcalls.snoc (.drop hquiet)).map Life.owned LifeEvent.did fun _ _ _ h ↦ .act h
  have hjoin : Run (MetricStore.Step (.withDefaults .pooled))
      (Roster.start .zero : MetricStore ι) _ _ := .single (.join _ ⟨true, rfl⟩)
  have hrun := hjoin.trans (Roster.act_run (k := 0) rfl ((Life.run_begin_pooled true).trans howned))
  rw [List.foldl_append, List.foldl_map] at hrun
  have hlength : (1 : ℕ) < 2 ^ 64 := by decide
  exact ⟨_, hrun, lt_of_le_of_lt (countP_isStart_le hrun) hlength⟩

/-- A store with one transaction, whose commit is answered before it is dropped. -/
theorem run_committed :
    ∃ (tr : List (RosterEvent (LifeEvent (HandleEvent Unit)))) (p : TxPool Unit),
      Run (MetricStore.Step (.withDefaults .pooled)) (Roster.start .zero) tr
        ⟨⟨1, 1, 0, 0⟩, [.owned ⟨true, p, true⟩]⟩ ∧ FewBegun tr := by
  have h : Run (Pool.Step (txServer Unit) (Call.code true)) (Pool.start (.opened .pooled true))
    [] (Pool.start (.opened .pooled true)) := .nil
  have h := h.called () .commit rfl
  have h := h.answered () .loadDone false _ rfl ⟨nofun, rfl⟩
  have h := h.answered () .lock () _ rfl ⟨rfl, rfl⟩
  have h := h.answered () .swapDone false _ rfl ⟨rfl, rfl⟩
  have h := h.answered () .takeInner _ _ rfl ⟨rfl, rfl⟩
  have h := h.answered () .unlock () _ rfl rfl
  have h := h.answered () (.tx (.sql .commit)) (.ok ⟨[], 0⟩) _ rfl rfl
  have h := h.answered () (.tx .releaseActive) () _ rfl rfl
  have h := h.answered () .addCommitted () _ rfl rfl
  obtain ⟨tr, hrun, hfew⟩ := run_one h fun i ⟨_, _, _, _, hi, _⟩ ↦ nomatch hi
  exact ⟨tr, _, hrun, hfew⟩

/-- A commit that is answered, then the `PgTx` is dropped. -/
theorem metricIdentity_of_commit :
    ∃ (tr : List (RosterEvent (LifeEvent (HandleEvent Unit)))) (r : MetricStore Unit),
      r.shared = ⟨1, 1, 0, 0⟩ ∧ (∀ x ∈ r.party, IsOver x) ∧
        r.shared.committed.toNat + r.shared.rolledBack.toNat ≤ r.shared.started.toNat ∧
        (r.shared.started.toNat = r.shared.committed.toNat + r.shared.rolledBack.toNat ↔
          ∀ e ∈ tr, shows isLost e = false) := by
  obtain ⟨tr, p, hrun, hfew⟩ := run_committed
  have hover : ∀ x ∈ [(.owned ⟨true, p, true⟩ : Life (Handle Unit))], IsOver x := by
    intro x hx
    obtain rfl := List.mem_singleton.mp hx
    rfl
  obtain ⟨hle, hid⟩ := (metricIdentity_of_run hrun).1 hfew
  exact ⟨tr, _, rfl, hover, hle, hid hover⟩

/-- A commit is dropped while `COMMIT` is on its way, then the `PgTx` is dropped: one transaction
was started, and none was counted as committed or rolled back. -/
theorem not_metricIdentity_after_abandoned_commit :
    ¬∀ (tr : List (RosterEvent (LifeEvent (HandleEvent Unit)))) (r : MetricStore Unit),
      Run (MetricStore.Step (.withDefaults .pooled)) (Roster.start .zero) tr r →
        MetricIdentity r := by
  intro hlaw
  have h : Run (Pool.Step (txServer Unit) (Call.code true)) (Pool.start (.opened .pooled true))
    [] (Pool.start (.opened .pooled true)) := .nil
  have h := h.called () .commit rfl
  have h := h.answered () .loadDone false _ rfl ⟨nofun, rfl⟩
  have h := h.answered () .lock () _ rfl ⟨rfl, rfl⟩
  have h := h.answered () .swapDone false _ rfl ⟨rfl, rfl⟩
  have h := h.answered () .takeInner _ _ rfl ⟨rfl, rfl⟩
  have h := h.answered () .unlock () _ rfl rfl
  have h := h.abandoned () (.tx (.sql .commit)) _ rfl rfl
  obtain ⟨tr, hrun, -⟩ := run_one h fun i ⟨_, _, _, _, hi, _⟩ ↦ nomatch hi
  have hid := (hlaw tr _ hrun).2 fun x hx ↦ by
    obtain rfl := List.mem_singleton.mp hx
    rfl
  exact nomatch hid

end SurrealPg
