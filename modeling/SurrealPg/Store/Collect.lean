import SurrealPg.Store.Metrics

/-!
# Collecting the metrics

The metrics of a store are read while its transactions go on. A collection loads one counter after
another, and looks at the pool, which it warns of once if it is nearly exhausted. So the counters a
call returns need not belong together: each of them was right at some moment of the call.

The size of the pool and the number of its idle connections are whatever they are.
-/

namespace SurrealPg

open Semantics MetricStore

/-- One access of a collection to what a store shares, or its warning. -/
inductive CollectReq
  /-- `pool.size()` -/
  | size
  /-- `pool.num_idle()` -/
  | numIdle
  /-- `self.pool_warned.swap(true, ..)` -/
  | swapWarned
  | warn
  /-- `self.tx_started.load(..)`, and so on. -/
  | loadStarted
  | loadCommitted
  | loadRolledBack
  | loadActive
  deriving DecidableEq

abbrev CollectReq.Answer : CollectReq → Type
  | .size => UInt32
  | .numIdle | .loadStarted | .loadCommitted | .loadRolledBack | .loadActive => UInt64
  | .swapWarned => Bool
  | .warn => Unit

/-- A function that collects metrics; it awaits nothing. -/
abbrev Collecting (α : Type) := Dialogue CollectReq CollectReq.Answer Empty α

structure Metric where
  name : String
  description : String

structure Metrics where
  name : String
  u64Metrics : List Metric

namespace Collect

/-- `pool_size`: size and idle. -/
def poolSize (s : PgStore) : Collecting (UInt32 × UInt64) :=
  match s.mode with
  | .pooled => do
    let size ← Dialogue.request .size none
    let idle ← Dialogue.request .numIdle none
    return (size, idle)
  | .direct => pure (0, 0)

/-- The pool holds more than 80% of the connections it may hold. -/
def exceeds (poolMax size : UInt32) : Bool := poolMax.toUInt64 * 4 < size.toUInt64 * 5

theorem exceeds_iff {poolMax size : UInt32} :
    exceeds poolMax size = true ↔ poolMax.toNat * 4 < size.toNat * 5 := by
  have hmax : poolMax.toNat * 4 < 2 ^ 64 := by
    have := poolMax.toNat_lt
    omega
  have hsize : size.toNat * 5 < 2 ^ 64 := by
    have := size.toNat_lt
    omega
  rw [exceeds, decide_eq_true_iff, UInt64.lt_iff_toNat_lt, UInt64.toNat_mul, UInt64.toNat_mul]
  exact iff_of_eq (congrArg₂ (· < ·) (Nat.mod_eq_of_lt hmax) (Nat.mod_eq_of_lt hsize))

/-- Warn once of it. -/
def checkPoolUtilization (s : PgStore) (poolMax : UInt32) : Collecting Unit := do
  let (size, _) ← poolSize s
  if size = 0 then return ()
  if exceeds poolMax size then
    let warned ← Dialogue.request .swapWarned none
    if !warned then Dialogue.request CollectReq.warn none

/-- `(started, committed, rolled_back, active)` -/
def txMetrics : Collecting (UInt64 × UInt64 × UInt64 × UInt64) := do
  let started ← Dialogue.request .loadStarted none
  let committed ← Dialogue.request .loadCommitted none
  let rolledBack ← Dialogue.request .loadRolledBack none
  let active ← Dialogue.request .loadActive none
  return (started, committed, rolledBack, active)

def registerMetrics : Option Metrics := some {
  name := "surrealdb.postgresql"
  u64Metrics := [
    ⟨"pg_pool_size", "Current number of connections in the pool (0 in direct mode)"⟩,
    ⟨"pg_pool_idle", "Number of idle connections in the pool (0 in direct mode)"⟩,
    ⟨"pg_pool_max", "Maximum number of connections allowed in the pool (0 in direct mode)"⟩,
    ⟨"pg_tx_started", "Total number of transactions started"⟩,
    ⟨"pg_tx_committed", "Total number of transactions committed successfully"⟩,
    ⟨"pg_tx_rolled_back", "Total number of transactions rolled back or cancelled"⟩,
    ⟨"pg_tx_active", "Number of currently active transactions"⟩,
    ⟨"pg_direct_mode", "1 if using direct connection mode (pooler), 0 if pooled"⟩] }

def collectU64Metric (s : PgStore) (poolMax : UInt32) (metric : String) :
    Collecting (Option UInt64) :=
  match metric with
  | "pg_pool_size" | "pg_pool_idle" => do
    let (size, idle) ← poolSize s
    checkPoolUtilization s poolMax
    if metric = "pg_pool_size" then return some size.toUInt64 else return some idle
  | "pg_pool_max" => return some (if s.mode = .direct then 0 else poolMax.toUInt64)
  | "pg_tx_started" | "pg_tx_committed" | "pg_tx_rolled_back" | "pg_tx_active" => do
    let (started, committed, rolledBack, active) ← txMetrics
    match metric with
    | "pg_tx_started" => return some started
    | "pg_tx_committed" => return some committed
    | "pg_tx_rolled_back" => return some rolledBack
    | _ => return some active
  | "pg_direct_mode" => return some (if s.mode = .direct then 1 else 0)
  | _ => return none

end Collect

/-- A call that reads metrics. -/
inductive Scrape
  | collect (metric : String)
  | txMetrics

inductive ScrapeAnswer
  | metric (v : Option UInt64)
  | counters (started committed rolledBack active : UInt64)

def Scrape.code (s : PgStore) (poolMax : UInt32) : Scrape → Collecting ScrapeAnswer
  | collect metric => .metric <$> Collect.collectU64Metric s poolMax metric
  | txMetrics => (fun m ↦ .counters m.1 m.2.1 m.2.2.1 m.2.2.2) <$> Collect.txMetrics

/-! ## What a call has read -/

/-- The counter of the transactions that is loaded. -/
def CollectReq.counter : CollectReq → Option (TxCounters → UInt64)
  | loadStarted => some TxCounters.started
  | loadCommitted => some TxCounters.committed
  | loadRolledBack => some TxCounters.rolledBack
  | loadActive => some TxCounters.active
  | _ => none

/-- The size of the pool and the values read last, and whether the warning is still to come. -/
structure Readings where
  size : Option UInt32
  seen : CollectReq → Option UInt64
  mayWarn : Bool

namespace Readings

def see (φ : Readings) (q : CollectReq) (v : UInt64) : Readings :=
  { φ with seen := Function.update φ.seen q (some v) }

theorem seen_see (φ : Readings) (q q' : CollectReq) (v : UInt64) :
    (φ.see q v).seen q' = if q' = q then some v else φ.seen q' :=
  Function.update_apply ..

/-- A call warns if it was the first to raise the flag, which it does for a pool that is nearly
exhausted. It looks at a pool only if there is one. -/
def May (s : PgStore) (poolMax : UInt32) (φ : Readings) : CollectReq → Option Empty → Prop
  | .size, _ | .numIdle, _ => s.mode = .pooled
  | .swapWarned, _ => s.mode = .pooled ∧ φ.mayWarn = false ∧
    ∃ v, φ.size = some v ∧ Collect.exceeds poolMax v
  | .warn, _ => φ.mayWarn = true
  | .loadStarted, _ | .loadCommitted, _ | .loadRolledBack, _ | .loadActive, _ => True

def next (φ : Readings) : (q : CollectReq) → q.Answer → Option Readings
  | .swapWarned, warned => some { φ with mayWarn := !warned }
  | .warn, _ => some { φ with mayWarn := false }
  | .size, v => some { φ with size := some v }
  | .numIdle, v => some (φ.see .numIdle v)
  | .loadStarted, v => some (φ.see .loadStarted v)
  | .loadCommitted, v => some (φ.see .loadCommitted v)
  | .loadRolledBack, v => some (φ.see .loadRolledBack v)
  | .loadActive, v => some (φ.see .loadActive v)

end Readings

/-- The names under which metrics are registered. -/
def registeredNames : List String :=
  (Collect.registerMetrics.elim [] Metrics.u64Metrics).map Metric.name

/-- The metrics that are about a pool. -/
def poolMetrics : List String := ["pg_pool_size", "pg_pool_idle", "pg_pool_max"]

/-- What the metrics of the transactions load. -/
def loadOf (metric : String) : Option CollectReq :=
  if metric = "pg_tx_started" then some .loadStarted
  else if metric = "pg_tx_committed" then some .loadCommitted
  else if metric = "pg_tx_rolled_back" then some .loadRolledBack
  else if metric = "pg_tx_active" then some .loadActive
  else none

/-- What a call may return that has read this. -/
def Readings.Ends (s : PgStore) (c : Scrape) (φ : Readings) (a : ScrapeAnswer) : Prop :=
  φ.mayWarn = false ∧ match c, a with
    | .collect metric, .metric v => (v.isSome ↔ metric ∈ registeredNames) ∧
      (∀ q, loadOf metric = some q → v = φ.seen q) ∧
      (s.mode = .direct → metric ∈ poolMetrics → v = some 0)
    | .txMetrics, .counters started committed rolledBack active =>
      φ.seen .loadStarted = some started ∧ φ.seen .loadCommitted = some committed ∧
        φ.seen .loadRolledBack = some rolledBack ∧ φ.seen .loadActive = some active
    | _, _ => False

/-! ## What the programs read -/

section

variable {s : PgStore} {poolMax : UInt32} {φ : Readings}

theorem poolSize_follows (φ : Readings) :
    (Collect.poolSize s).Follows (Readings.May s poolMax) Readings.next
      (fun φ' a ↦ φ'.mayWarn = φ.mayWarn ∧ (s.mode = .pooled → φ'.size = some a.1) ∧
        (s.mode = .direct → a = (0, 0))) φ := by
  rw [Collect.poolSize]
  cases hmode : s.mode with
  | direct => exact ⟨rfl, nofun, fun _ ↦ rfl⟩
  | pooled =>
    refine ⟨hmode, fun size φ' hφ' ↦ ?_⟩
    obtain rfl := Option.some.inj hφ'
    refine ⟨hmode, fun idle φ' hφ' ↦ ?_⟩
    obtain rfl := Option.some.inj hφ'
    exact ⟨rfl, fun _ ↦ rfl, nofun⟩

theorem checkPoolUtilization_follows (hφ : φ.mayWarn = false) :
    (Collect.checkPoolUtilization s poolMax).Follows (Readings.May s poolMax) Readings.next
      (fun φ' _ ↦ φ'.mayWarn = false) φ := by
  refine (poolSize_follows φ).bind ?_
  rintro φ' ⟨size, idle⟩ ⟨hwarn, hsize, hdirect⟩
  rw [hφ] at hwarn
  dsimp only
  split_ifs with hzero hmany
  · exact hwarn
  · have hmode : s.mode = .pooled := by
      cases hmode : s.mode with
      | pooled => rfl
      | direct => exact absurd (congrArg Prod.fst (hdirect hmode)) hzero
    refine ⟨⟨hmode, hwarn, size, hsize hmode, hmany⟩, fun warned φ'' hφ'' ↦ ?_⟩
    obtain rfl := Option.some.inj hφ''
    cases warned with
    | true => rfl
    | false =>
      refine ⟨rfl, fun _ φ'' hφ'' ↦ ?_⟩
      obtain rfl := Option.some.inj hφ''
      rfl
  · exact hwarn

theorem txMetrics_follows (φ : Readings) :
    Collect.txMetrics.Follows (Readings.May s poolMax) Readings.next
      (fun φ' m ↦ φ'.mayWarn = φ.mayWarn ∧ φ'.seen .loadStarted = some m.1 ∧
        φ'.seen .loadCommitted = some m.2.1 ∧ φ'.seen .loadRolledBack = some m.2.2.1 ∧
        φ'.seen .loadActive = some m.2.2.2) φ := by
  refine ⟨trivial, fun started φ' hφ' ↦ ?_⟩
  obtain rfl := Option.some.inj hφ'
  refine ⟨trivial, fun committed φ' hφ' ↦ ?_⟩
  obtain rfl := Option.some.inj hφ'
  refine ⟨trivial, fun rolledBack φ' hφ' ↦ ?_⟩
  obtain rfl := Option.some.inj hφ'
  refine ⟨trivial, fun active φ' hφ' ↦ ?_⟩
  obtain rfl := Option.some.inj hφ'
  exact ⟨rfl, rfl, rfl, rfl, rfl⟩

/-- Nothing has been read. -/
def Readings.start : Readings := ⟨none, fun _ ↦ none, false⟩

theorem Readings.ends_collect {metric : String} {v : UInt64} (hwarn : φ.mayWarn = false)
    (hreg : metric ∈ registeredNames) {q : Option CollectReq} (hq : loadOf metric = q)
    (hseen : ∀ q' ∈ q, φ.seen q' = some v)
    (hpool : s.mode = .direct → metric ∈ poolMetrics → v = 0) :
    Readings.Ends s (.collect metric) φ (.metric (some v)) := by
  refine ⟨hwarn, ⟨fun _ ↦ hreg, fun _ ↦ rfl⟩, fun q' hq' ↦ ?_, fun hmode hm ↦ ?_⟩
  · exact (hseen q' (hq.symm.trans hq')).symm
  · rw [hpool hmode hm]

theorem mem_registeredNames_of_loadOf {metric : String} {q : CollectReq}
    (h : loadOf metric = some q) : metric ∈ registeredNames := by
  rw [loadOf] at h
  split_ifs at h with h₁ h₂ h₃ h₄
  · rw [h₁]
    decide +kernel
  · rw [h₂]
    decide +kernel
  · rw [h₃]
    decide +kernel
  · rw [h₄]
    decide +kernel

theorem Readings.ends_load {metric : String} {q : CollectReq} {v : UInt64}
    (hwarn : φ.mayWarn = false) (hq : loadOf metric = some q) (hpool : metric ∉ poolMetrics)
    (hseen : φ.seen q = some v) :
    Readings.Ends s (.collect metric) φ (.metric (some v)) := by
  refine ends_collect hwarn (mem_registeredNames_of_loadOf hq) hq (fun q' hq' ↦ ?_)
    fun _ hm ↦ absurd hm hpool
  rw [← Option.some.inj hq', hseen]

theorem collectU64Metric_follows (metric : String) :
    (Collect.collectU64Metric s poolMax metric).Follows (Readings.May s poolMax) Readings.next
      (fun φ v ↦ Readings.Ends s (.collect metric) φ (.metric v)) .start := by
  rw [Collect.collectU64Metric.eq_def]
  split
  · refine (poolSize_follows _).bind ?_
    rintro φ ⟨size, idle⟩ ⟨hwarn, -, hdirect⟩
    refine (checkPoolUtilization_follows hwarn).bind ?_
    rintro φ' - hwarn'
    exact Readings.ends_collect hwarn' (by decide +kernel) (q := none) (by decide +kernel) nofun
      fun hmode _ ↦ congrArg (fun a ↦ a.1.toUInt64) (hdirect hmode)
  · refine (poolSize_follows _).bind ?_
    rintro φ ⟨size, idle⟩ ⟨hwarn, -, hdirect⟩
    refine (checkPoolUtilization_follows hwarn).bind ?_
    rintro φ' - hwarn'
    exact Readings.ends_collect hwarn' (by decide +kernel) (q := none) (by decide +kernel) nofun
      fun hmode _ ↦ congrArg Prod.snd (hdirect hmode)
  · exact Readings.ends_collect rfl (by decide +kernel) (q := none) (by decide +kernel) nofun
      fun hmode _ ↦ if_pos hmode
  · refine (txMetrics_follows _).bind ?_
    rintro φ ⟨started, committed, rolledBack, active⟩ ⟨hwarn, hstarted, -⟩
    exact Readings.ends_load hwarn (q := .loadStarted) (by decide +kernel) (by decide +kernel)
      hstarted
  · refine (txMetrics_follows _).bind ?_
    rintro φ ⟨started, committed, rolledBack, active⟩ ⟨hwarn, -, hcommitted, -⟩
    exact Readings.ends_load hwarn (q := .loadCommitted) (by decide +kernel) (by decide +kernel)
      hcommitted
  · refine (txMetrics_follows _).bind ?_
    rintro φ ⟨started, committed, rolledBack, active⟩ ⟨hwarn, -, -, hrolledBack, -⟩
    exact Readings.ends_load hwarn (q := .loadRolledBack) (by decide +kernel) (by decide +kernel)
      hrolledBack
  · refine (txMetrics_follows _).bind ?_
    rintro φ ⟨started, committed, rolledBack, active⟩ ⟨hwarn, -, -, -, hactive⟩
    exact Readings.ends_load hwarn (q := .loadActive) (by decide +kernel) (by decide +kernel)
      hactive
  · exact Readings.ends_collect rfl (by decide +kernel) (q := none) (by decide +kernel) nofun
      fun _ hm ↦ absurd hm (by decide +kernel)
  · rename_i hsize hidle hmax hstarted hcommitted hrolledBack hactive hdirect
    have hreg : metric ∉ registeredNames := by
      simp only [registeredNames, Collect.registerMetrics, Option.elim_some, List.map_cons,
        List.map_nil, List.mem_cons, List.not_mem_nil, or_false, not_or]
      exact ⟨hsize, hidle, hmax, hstarted, hcommitted, hrolledBack, hactive, hdirect⟩
    have hload : loadOf metric = none := by
      rw [loadOf, if_neg hstarted, if_neg hcommitted, if_neg hrolledBack, if_neg hactive]
    refine ⟨rfl, ⟨nofun, fun h ↦ absurd h hreg⟩, fun q hq ↦ ?_, fun _ hm ↦ ?_⟩
    · cases hload.symm.trans hq
    · simp only [poolMetrics, List.mem_cons, List.not_mem_nil, or_false] at hm
      exact absurd hm (not_or.mpr ⟨hsize, not_or.mpr ⟨hidle, hmax⟩⟩)

/-- **Every call** returns what it has read. -/
theorem Scrape.follows (c : Scrape) : (c.code s poolMax).Follows (Readings.May s poolMax)
    Readings.next (Readings.Ends s c) .start := by
  cases c with
  | collect metric => exact Dialogue.Follows.map (collectU64Metric_follows metric)
  | txMetrics =>
    exact Dialogue.Follows.map ((txMetrics_follows .start).mono fun φ m h ↦ ⟨h.1, h.2⟩)

end

/-! ## Transactions and collections -/

section Runs

variable {ι κ : Type} [DecidableEq ι] [DecidableEq κ]

/-- How a request is answered while the counters are `n`. -/
inductive Gives (n : TxCounters) (warned : Bool) : (q : CollectReq) → q.Answer → Bool → Prop
  | size (v : UInt32) : Gives n warned .size v warned
  | numIdle (v : UInt64) : Gives n warned .numIdle v warned
  | swapWarned : Gives n warned .swapWarned warned true
  | warn : Gives n warned .warn () warned
  | loadStarted : Gives n warned .loadStarted n.started warned
  | loadCommitted : Gives n warned .loadCommitted n.committed warned
  | loadRolledBack : Gives n warned .loadRolledBack n.rolledBack warned
  | loadActive : Gives n warned .loadActive n.active warned

/-- What the collections find while the counters are `n`; they share the flag that tells whether
somebody has warned. -/
def collectServer (n : TxCounters) : Server κ CollectReq CollectReq.Answer Empty Bool where
  answer _ := Gives n
  unwind _ _ _ _ := False

/-- The transactions of a store, and the calls that read its metrics. -/
structure Collection (ι κ : Type) where
  store : MetricStore ι
  calls : Pool κ Scrape CollectReq CollectReq.Answer Empty ScrapeAnswer Bool

def Collection.start : Collection ι κ := ⟨Roster.start .zero, Pool.start false⟩

inductive CollectEvent (ι κ : Type)
  | store (e : RosterEvent (LifeEvent (HandleEvent ι)))
  | call (e : PoolEvent κ Scrape CollectReq CollectReq.Answer)

namespace CollectEvent

def isWarning : CollectEvent ι κ → Bool
  | call (.answered _ .warn _) => true
  | _ => false

/-- What happens to the transactions. -/
def inStore : CollectEvent ι κ → Option (RosterEvent (LifeEvent (HandleEvent ι)))
  | store e => some e
  | call _ => none

end CollectEvent

/-- A transaction goes on, or a call does. -/
inductive CollectStep (s : PgStore) (poolMax : UInt32) :
    Collection ι κ → CollectEvent ι κ → Collection ι κ → Prop
  | store {r r' : MetricStore ι}
    {calls : Pool κ Scrape CollectReq CollectReq.Answer Empty ScrapeAnswer Bool}
    {e : RosterEvent (LifeEvent (HandleEvent ι))} :
    MetricStore.Step s r e r' → CollectStep s poolMax ⟨r, calls⟩ (.store e) ⟨r', calls⟩
  | call {r : MetricStore ι}
    {calls calls' : Pool κ Scrape CollectReq CollectReq.Answer Empty ScrapeAnswer Bool}
    {e : PoolEvent κ Scrape CollectReq CollectReq.Answer} :
    Pool.Step (collectServer r.shared) (Scrape.code s poolMax) calls e calls' →
    CollectStep s poolMax ⟨r, calls⟩ (.call e) ⟨r, calls'⟩

/-- At one moment of call `i` the counters satisfied `P`. -/
def During (s : PgStore) (poolMax : UInt32) (tr : List (CollectEvent ι κ)) (x : Collection ι κ)
    (i : κ) (P : TxCounters → Prop) : Prop :=
  Through (CollectStep s poolMax) Collection.start tr x fun m ↦
    m.calls.Waiting i (fun _ ↦ True) ∧ P m.store.shared

/-- What a call has returned is true: a metric of the transactions is the counter at one moment of
the call. As long as the counters do not wrap around, the entries that are returned together are not
more than the transactions that were started by then, but may be more than are returned with
them. -/
def Reports (s : PgStore) (few : Prop) (during : (TxCounters → Prop) → Prop) :
    Scrape → ScrapeAnswer → Prop
  | .collect metric, .metric v => (v.isSome ↔ metric ∈ registeredNames) ∧
    (∀ q f, loadOf metric = some q → q.counter = some f →
      ∃ n, v = some n ∧ during fun counters ↦ f counters = n) ∧
    (s.mode = .direct → metric ∈ poolMetrics → v = some 0)
  | .txMetrics, .counters started committed rolledBack active =>
    (during fun n ↦ n.started = started) ∧ (during fun n ↦ n.committed = committed) ∧
      (during fun n ↦ n.rolledBack = rolledBack) ∧ (during fun n ↦ n.active = active) ∧
      (few → during fun n ↦ committed.toNat + rolledBack.toNat ≤ n.started.toNat)
  | _, _ => False

variable {s : PgStore} {poolMax : UInt32} {tr : List (CollectEvent ι κ)} {x x' : Collection ι κ}
  {e : CollectEvent ι κ} {i : κ}

theorem During.snoc {P : TxCounters → Prop} (h : During s poolMax tr x i P)
    (hstep : CollectStep s poolMax x e x') : During s poolMax (tr ++ [e]) x' i P :=
  Through.snoc h hstep

theorem store_of_run (h : Run (CollectStep s poolMax) Collection.start tr x) :
    Run (MetricStore.Step s) (Roster.start .zero) (tr.filterMap CollectEvent.inStore) x.store := by
  induction h with
  | nil => exact .nil
  | snoc _ hstep ih =>
    rw [List.filterMap_append]
    cases hstep with
    | store hstep => exact ih.snoc hstep
    | call => rwa [List.filterMap_cons_none rfl, List.filterMap_nil, List.append_nil]

/-- Fewer than `2 ^ 64` of them were begun. -/
abbrev Fits (tr : List (CollectEvent ι κ)) : Prop := FewBegun (tr.filterMap CollectEvent.inStore)

omit [DecidableEq ι] [DecidableEq κ] in
theorem Fits.of_snoc (h : Fits (tr ++ [e])) : Fits tr := by
  rw [Fits, List.filterMap_append, FewBegun, List.countP_append] at h
  exact lt_of_le_of_lt (Nat.le_add_right ..) h

theorem entries_mono (hrun : Run (CollectStep s poolMax) Collection.start tr x)
    (hstep : CollectStep s poolMax x e x') (hfits : Fits (tr ++ [e])) :
    x.store.shared.committed.toNat ≤ x'.store.shared.committed.toNat ∧
      x.store.shared.rolledBack.toNat ≤ x'.store.shared.rolledBack.toNat := by
  obtain ⟨-, hcommitted, hrolledBack⟩ := toNat_of_run (store_of_run hrun) hfits.of_snoc
  obtain ⟨-, hcommitted', hrolledBack'⟩ := toNat_of_run (store_of_run (hrun.snoc hstep)) hfits
  rw [hcommitted, hrolledBack, hcommitted', hrolledBack', List.filterMap_append,
    List.countP_append, List.countP_append]
  exact ⟨Nat.le_add_right .., Nat.le_add_right ..⟩

/-! ## What has been read is true -/

/-- What call `i` has read. -/
structure Faithful (s : PgStore) (poolMax : UInt32) (tr : List (CollectEvent ι κ))
    (x : Collection ι κ) (i : κ) (φ : Readings) : Prop where
  counters : ∀ q f v, q.counter = some f → φ.seen q = some v →
    During s poolMax tr x i fun n ↦ f n = v
  grown : Fits tr →
    (∀ v, φ.seen .loadCommitted = some v → v.toNat ≤ x.store.shared.committed.toNat) ∧
      ∀ v, φ.seen .loadRolledBack = some v → v.toNat ≤ x.store.shared.rolledBack.toNat
  sum : Fits tr → ∀ committed rolledBack, φ.seen .loadCommitted = some committed →
    φ.seen .loadRolledBack = some rolledBack →
    During s poolMax tr x i fun n ↦ committed.toNat + rolledBack.toNat ≤ n.started.toNat
  sizes : ∀ v, φ.size = some v → .call (.answered i .size v) ∈ tr

namespace Faithful

variable {φ : Readings}

theorem start : Faithful s poolMax tr x i .start :=
  ⟨nofun, fun _ ↦ ⟨nofun, nofun⟩, fun _ ↦ nofun, nofun⟩

theorem snoc (h : Faithful s poolMax tr x i φ)
    (hrun : Run (CollectStep s poolMax) Collection.start tr x)
    (hstep : CollectStep s poolMax x e x') : Faithful s poolMax (tr ++ [e]) x' i φ where
  counters q f v hf hv := (h.counters q f v hf hv).snoc hstep
  grown hfits := by
    obtain ⟨hcommitted, hrolledBack⟩ := h.grown hfits.of_snoc
    obtain ⟨hco, hro⟩ := entries_mono hrun hstep hfits
    exact ⟨fun v hv ↦ (hcommitted v hv).trans hco, fun v hv ↦ (hrolledBack v hv).trans hro⟩
  sum hfits committed rolledBack hco hro :=
    (h.sum hfits.of_snoc committed rolledBack hco hro).snoc hstep
  sizes v hv := List.mem_append_left _ (h.sizes v hv)

theorem size (h : Faithful s poolMax tr x i φ) {v : UInt32}
    (hrun : Run (CollectStep s poolMax) Collection.start tr x)
    (hstep : CollectStep s poolMax x e x') (he : e = .call (.answered i .size v)) :
    Faithful s poolMax (tr ++ [e]) x' i { φ with size := some v } where
  counters := (h.snoc hrun hstep).counters
  grown := (h.snoc hrun hstep).grown
  sum := (h.snoc hrun hstep).sum
  sizes v' hv' := by
    rw [← Option.some.inj hv', he]
    exact List.mem_append_right _ (List.mem_singleton.mpr rfl)

theorem warned (h : Faithful s poolMax tr x i φ) (b : Bool) :
    Faithful s poolMax tr x i { φ with mayWarn := b } :=
  ⟨h.counters, h.grown, h.sum, h.sizes⟩

theorem see_counters (h : Faithful s poolMax tr x i φ) {q : CollectReq} {v : UInt64}
    (hrun : Run (CollectStep s poolMax) Collection.start tr x)
    (hwait : x.calls.Waiting i fun _ ↦ True)
    (hv : ∀ f, q.counter = some f → f x.store.shared = v) {q' : CollectReq}
    {f : TxCounters → UInt64} {v' : UInt64} (hf : q'.counter = some f)
    (hv' : (φ.see q v).seen q' = some v') : During s poolMax tr x i fun n ↦ f n = v' := by
  rw [Readings.seen_see] at hv'
  split_ifs at hv' with hq
  · rw [hq] at hf
    obtain rfl := Option.some.inj hv'
    exact hrun.through ⟨hwait, hv f hf⟩
  · exact h.counters q' f v' hf hv'

omit [DecidableEq ι] [DecidableEq κ] in
theorem see_le {q q' : CollectReq} {v v' : UInt64} {f : TxCounters → UInt64}
    (hgrown : ∀ v, φ.seen q' = some v → v.toNat ≤ (f x.store.shared).toNat)
    (hf : q'.counter = some f) (hv : ∀ f, q.counter = some f → f x.store.shared = v)
    (hv' : (φ.see q v).seen q' = some v') : v'.toNat ≤ (f x.store.shared).toNat := by
  rw [Readings.seen_see] at hv'
  split_ifs at hv' with hq
  · rw [hq] at hf
    rw [← Option.some.inj hv', hv f hf]
  · exact hgrown v' hv'

theorem see (h : Faithful s poolMax tr x i φ) {q : CollectReq} {v : UInt64}
    (hrun : Run (CollectStep s poolMax) Collection.start tr x)
    (hwait : x.calls.Waiting i fun _ ↦ True)
    (hv : ∀ f, q.counter = some f → f x.store.shared = v) :
    Faithful s poolMax tr x i (φ.see q v) := by
  have hgrown : Fits tr →
      (∀ v', (φ.see q v).seen .loadCommitted = some v' →
        v'.toNat ≤ x.store.shared.committed.toNat) ∧
      ∀ v', (φ.see q v).seen .loadRolledBack = some v' →
        v'.toNat ≤ x.store.shared.rolledBack.toNat := by
    intro hfits
    obtain ⟨hcommitted, hrolledBack⟩ := h.grown hfits
    exact ⟨fun v' hv' ↦ see_le hcommitted rfl hv hv', fun v' hv' ↦ see_le hrolledBack rfl hv hv'⟩
  refine ⟨fun q' f v' hf hv' ↦ h.see_counters hrun hwait hv hf hv', hgrown,
    fun hfits committed rolledBack hco hro ↦ ?_, h.sizes⟩
  -- both are at most what they are now, and now the law holds
  obtain ⟨hcommitted, hrolledBack⟩ := hgrown hfits
  have hlaw := entries_le_started (store_of_run hrun) hfits
  exact hrun.through ⟨hwait,
    (Nat.add_le_add (hcommitted committed hco) (hrolledBack rolledBack hro)).trans hlaw⟩

end Faithful

/-! ## The warning -/

/-- Call `i` is about to warn. -/
def Pends (ph : Phases κ Scrape Readings) (i : κ) : Prop :=
  ∃ c φ, ph i = some (.live c φ) ∧ φ.mayWarn = true

/-- How often it was warned, and whether the flag is raised: whoever raised it has warned or is
about to. -/
inductive WarnLaw (ph : Phases κ Scrape Readings) : ℕ → Bool → Prop
  | unraised : (∀ i, ¬Pends ph i) → WarnLaw ph 0 false
  | due (i : κ) : (∀ j, Pends ph j ↔ j = i) → WarnLaw ph 0 true
  | warned : (∀ i, ¬Pends ph i) → WarnLaw ph 1 true

section

variable {ph : Phases κ Scrape Readings} {c : Scrape} {φ φ' : Readings} {n : ℕ} {flag : Bool}

theorem pends_update {j : κ} : Pends (Function.update ph i (some (.live c φ))) j ↔
    if j = i then φ.mayWarn = true else Pends ph j := by
  split_ifs with hj
  · subst hj
    refine ⟨fun ⟨c', φ', hph, hwarn⟩ ↦ ?_, fun hwarn ↦ ⟨c, φ, Function.update_self .., hwarn⟩⟩
    rw [Function.update_self] at hph
    obtain ⟨rfl, rfl⟩ := Task.live.inj (Option.some.inj hph)
    exact hwarn
  · rw [Pends, Pends, Function.update_of_ne hj]

omit [DecidableEq κ] in
theorem pends_iff {ph : Phases κ Scrape Readings} {i : κ} (hi : ph i = some (.live c φ)) :
    Pends ph i ↔ φ.mayWarn = true := by
  refine ⟨fun ⟨c', φ', hph, hwarn⟩ ↦ ?_, fun hwarn ↦ ⟨c, φ, hi, hwarn⟩⟩
  obtain ⟨rfl, rfl⟩ := Task.live.inj (Option.some.inj (hph.symm.trans hi))
  exact hwarn

omit [DecidableEq κ] in
theorem WarnLaw.congr {ph' : Phases κ Scrape Readings} (h : WarnLaw ph n flag)
    (hph : ∀ j, Pends ph' j ↔ Pends ph j) : WarnLaw ph' n flag := by
  cases h with
  | unraised hnone => exact .unraised fun i hi ↦ hnone i ((hph i).mp hi)
  | due i hdue => exact .due i fun j ↦ (hph j).trans (hdue j)
  | warned hnone => exact .warned fun i hi ↦ hnone i ((hph i).mp hi)

theorem WarnLaw.still (h : WarnLaw ph n flag) (hi : ¬Pends ph i) (hφ : φ'.mayWarn = false) :
    WarnLaw (Function.update ph i (some (.live c φ'))) n flag := by
  refine h.congr fun j ↦ ?_
  rw [pends_update, hφ]
  split_ifs with hj
  · subst hj
    exact ⟨nofun, fun hj ↦ absurd hj hi⟩
  · rfl

/-- **The flag is raised**, by the one call that will warn or by one that will not. -/
theorem WarnLaw.swap (h : WarnLaw ph n flag) (hi : ¬Pends ph i) (hφ : φ'.mayWarn = !flag) :
    WarnLaw (Function.update ph i (some (.live c φ'))) n true := by
  cases h with
  | unraised hnone =>
    refine .due i fun j ↦ ?_
    rw [pends_update]
    split_ifs with hj
    · exact ⟨fun _ ↦ hj, fun _ ↦ hφ⟩
    · exact ⟨fun hpend ↦ absurd hpend (hnone j), fun hji ↦ absurd hji hj⟩
  | due k hdue => exact (WarnLaw.due k hdue).still hi hφ
  | warned hnone => exact (WarnLaw.warned hnone).still hi hφ

theorem WarnLaw.warn (h : WarnLaw ph n flag) (hi : Pends ph i) (hφ : φ'.mayWarn = false) :
    WarnLaw (Function.update ph i (some (.live c φ'))) (n + 1) flag := by
  cases h with
  | unraised hnone => exact absurd hi (hnone i)
  | due k hdue =>
    obtain rfl := (hdue i).mp hi
    refine .warned fun j ↦ ?_
    rw [pends_update, hφ]
    split_ifs with hj
    · exact not_false
    · exact fun hpend ↦ hj ((hdue j).mp hpend)
  | warned hnone => exact absurd hi (hnone i)

end

/-! ## Every run -/

/-- The phases of the calls. -/
def collecting (s : PgStore) (poolMax : UInt32) :
    Typestate Scrape CollectReq CollectReq.Answer Empty ScrapeAnswer Readings where
  start _ := .start
  may _ := Readings.May s poolMax
  next := Readings.next
  ends := Readings.Ends s

/-- What holds in every run, for what the calls have read. -/
structure CollectInv (s : PgStore) (poolMax : UInt32) (tr : List (CollectEvent ι κ))
    (x : Collection ι κ) (ph : Phases κ Scrape Readings) : Prop where
  follows : x.calls.Follows (collecting s poolMax) ph
  faithful : ∀ i c φ, ph i = some (.live c φ) → Faithful s poolMax tr x i φ
  law : WarnLaw ph (tr.countP CollectEvent.isWarning) x.calls.mem
  raised : x.calls.mem = true → s.mode = .pooled ∧
    ∃ i v, CollectEvent.call (.answered i .size v) ∈ tr ∧ Collect.exceeds poolMax v

variable {ph : Phases κ Scrape Readings}

theorem collectInv_start : CollectInv s poolMax [] (Collection.start : Collection ι κ)
    fun _ ↦ none where
  follows _ := rfl
  faithful _ _ _ hi := by cases hi
  law := .unraised fun i ⟨_, _, hi, _⟩ ↦ by cases hi
  raised := nofun

theorem CollectInv.answer {c : Scrape} {q : CollectReq} {u : Option Empty}
    {next : q.Answer → Collecting ScrapeAnswer} {r : q.Answer} {flag : Bool}
    (h : CollectInv s poolMax tr x ph)
    (hrun : Run (CollectStep s poolMax) Collection.start tr x)
    (hi : x.calls.task i = some (.live c (.ask q u next)))
    (hg : Gives x.store.shared x.calls.mem q r flag)
    (hstep : CollectStep s poolMax x (.call (.answered i q r))
      ⟨x.store, x.calls.advance i (.live c (next r)) flag⟩) :
    ∃ φ', CollectInv s poolMax (tr ++ [.call (.answered i q r)])
      ⟨x.store, x.calls.advance i (.live c (next r)) flag⟩
      (Function.update ph i (some (.live c φ'))) := by
  obtain ⟨φ, hφ, hmay, hnext⟩ := h.follows.live hi
  have hwait : x.calls.Waiting i fun _ ↦ True := ⟨c, q, u, next, hi, trivial⟩
  have hpend := pends_iff hφ
  -- what is left to show, whatever the answer
  have hinv : ∀ φ', Readings.next φ q r = some φ' →
      Faithful s poolMax (tr ++ [.call (.answered i q r)])
        ⟨x.store, x.calls.advance i (.live c (next r)) flag⟩ i φ' →
      WarnLaw (Function.update ph i (some (.live c φ')))
        ((tr ++ [CollectEvent.call (.answered i q r)]).countP CollectEvent.isWarning) flag →
      (flag = true → x.calls.mem = true ∨ s.mode = .pooled ∧
        ∃ v, φ.size = some v ∧ Collect.exceeds poolMax v) →
      CollectInv s poolMax (tr ++ [.call (.answered i q r)])
        ⟨x.store, x.calls.advance i (.live c (next r)) flag⟩
        (Function.update ph i (some (.live c φ'))) := by
    intro φ' hφ' hfaithful hwarn hraised
    refine ⟨h.follows.advance i flag ⟨φ', rfl, hnext r φ' hφ'⟩, fun j c' φ'' hj ↦ ?_, hwarn,
      fun hflag ↦ ?_⟩
    · rcases update_eq_live hj with ⟨rfl, rfl, rfl⟩ | ⟨-, hj⟩
      · exact hfaithful
      · exact (h.faithful j c' φ'' hj).snoc hrun hstep
    · obtain hold | ⟨hmode, v, hv, hmany⟩ := hraised hflag
      · obtain ⟨hmode, j, v, hmem, hmany⟩ := h.raised hold
        exact ⟨hmode, j, v, List.mem_append_left _ hmem, hmany⟩
      · exact ⟨hmode, i, v, List.mem_append_left _ ((h.faithful i c φ hφ).sizes v hv), hmany⟩
  have hfaithful := h.faithful i c φ hφ
  have hread : ∀ φ', Readings.next φ q r = some φ' → φ'.mayWarn = φ.mayWarn →
      (tr ++ [CollectEvent.call (.answered i q r)]).countP CollectEvent.isWarning =
        tr.countP CollectEvent.isWarning → flag = x.calls.mem →
      Faithful s poolMax (tr ++ [.call (.answered i q r)])
        ⟨x.store, x.calls.advance i (.live c (next r)) flag⟩ i φ' →
      ∃ φ', CollectInv s poolMax (tr ++ [.call (.answered i q r)])
        ⟨x.store, x.calls.advance i (.live c (next r)) flag⟩
        (Function.update ph i (some (.live c φ'))) := by
    intro φ' hφ' hwarn hcount hflag hfaithful
    refine ⟨φ', hinv φ' hφ' hfaithful ?_ fun hraised ↦ Or.inl (hflag ▸ hraised)⟩
    rw [hcount, hflag]
    refine h.law.congr fun j ↦ ?_
    rw [pends_update, hwarn]
    split_ifs with hj
    · subst hj
      exact hpend.symm
    · rfl
  cases hg with
  | size v => exact hread _ rfl rfl (countP_snoc ..) rfl (hfaithful.size hrun hstep rfl)
  | numIdle v =>
    have hsee := hfaithful.see (q := .numIdle) (v := v) hrun hwait nofun
    exact hread _ rfl rfl (countP_snoc ..) rfl (hsee.snoc hrun hstep)
  | loadStarted | loadCommitted | loadRolledBack | loadActive =>
    exact hread _ rfl rfl (countP_snoc ..) rfl
      ((hfaithful.see hrun hwait fun f hf ↦ Option.some.inj hf ▸ rfl).snoc hrun hstep)
  | swapWarned =>
    obtain ⟨hmode, hnot, hmany⟩ := hmay
    refine ⟨{ φ with mayWarn := !x.calls.mem }, hinv _ rfl ((hfaithful.warned _).snoc hrun hstep) ?_
      fun _ ↦ Or.inr ⟨hmode, hmany⟩⟩
    have hcount : (tr ++ [CollectEvent.call (.answered i .swapWarned x.calls.mem)]).countP
        CollectEvent.isWarning = tr.countP CollectEvent.isWarning := countP_snoc ..
    rw [hcount]
    exact h.law.swap (fun hi ↦ by cases hnot.symm.trans (hpend.mp hi)) rfl
  | warn =>
    refine ⟨{ φ with mayWarn := false },
      hinv _ rfl ((hfaithful.warned _).snoc hrun hstep) ?_ Or.inl⟩
    have hcount : (tr ++ [CollectEvent.call (.answered i .warn ())]).countP
        CollectEvent.isWarning = tr.countP CollectEvent.isWarning + 1 := countP_snoc ..
    rw [hcount]
    exact h.law.warn (hpend.mpr hmay) rfl

theorem collectInv_of_run (h : Run (CollectStep s poolMax) Collection.start tr x) :
    ∃ ph, CollectInv s poolMax tr x ph := by
  induction h with
  | nil => exact ⟨_, collectInv_start⟩
  | @snoc tr x x' e hrun hstep ih =>
    obtain ⟨ph, h⟩ := ih
    have hstep' := hstep
    cases hstep with
    | @store r r' calls e hact =>
      refine ⟨ph, h.follows, fun i c φ hi ↦ (h.faithful i c φ hi).snoc hrun hstep', ?_,
        fun hflag ↦ ?_⟩
      · rw [countP_snoc]
        exact h.law
      · obtain ⟨hmode, i, v, hmem, hmany⟩ := h.raised hflag
        exact ⟨hmode, i, v, List.mem_append_left _ hmem, hmany⟩
    | @call r calls calls' e hcall =>
      cases hcall with
      | call i c hi =>
        have hph : ph i = none := by
          have hph := h.follows i
          rwa [hi] at hph
        have hpend : ¬Pends ph i := by
          rintro ⟨c', φ, hi', -⟩
          cases hph.symm.trans hi'
        refine ⟨_, h.follows.advance i _ ⟨.start, rfl, c.follows⟩, fun j c' φ hj ↦ ?_, ?_,
          fun hflag ↦ ?_⟩
        · rcases update_eq_live hj with ⟨rfl, rfl, rfl⟩ | ⟨-, hj⟩
          · exact .start
          · exact (h.faithful j c' φ hj).snoc hrun hstep'
        · rw [countP_snoc]
          exact h.law.still hpend rfl
        · obtain ⟨hmode, j, v, hmem, hmany⟩ := h.raised hflag
          exact ⟨hmode, j, v, List.mem_append_left _ hmem, hmany⟩
      | answer i q r hi hg =>
        obtain ⟨φ', h'⟩ := h.answer hrun hi hg hstep'
        exact ⟨_, h'⟩
      | abandon i q hi hun => exact hun.elim

/-- **Collecting the metrics.** However the calls that read them and the transactions of the store
go on side by side: it is warned at most once, and only of a pool that a call has seen to hold more
than 80% of the connections it may hold; exactly the registered metrics are answered; and what is
answered is true. -/
theorem collect_sound (h : Run (CollectStep s poolMax) Collection.start tr x) :
    tr.countP CollectEvent.isWarning ≤ 1 ∧
    (0 < tr.countP CollectEvent.isWarning → s.mode = .pooled ∧
      ∃ i v, CollectEvent.call (.answered i .size v) ∈ tr ∧ poolMax.toNat * 4 < v.toNat * 5) ∧
    ∀ i c a, x.calls.Returned i c a → Reports s (Fits tr) (During s poolMax tr x i) c a := by
  obtain ⟨ph, hinv⟩ := collectInv_of_run h
  refine ⟨?_, fun hwarned ↦ ?_, fun i c a hret ↦ ?_⟩
  · have hlaw := hinv.law
    generalize tr.countP CollectEvent.isWarning = n at hlaw
    generalize x.calls.mem = flag at hlaw
    cases hlaw with
    | unraised | due => exact Nat.zero_le 1
    | warned => exact Nat.le_refl 1
  · have hraised : x.calls.mem = true := by
      have hlaw := hinv.law
      generalize tr.countP CollectEvent.isWarning = n at hlaw hwarned
      generalize x.calls.mem = flag at hlaw
      cases hlaw with
      | unraised | due => exact absurd hwarned (Nat.lt_irrefl 0)
      | warned => rfl
    obtain ⟨hmode, i, v, hmem, hmany⟩ := hinv.raised hraised
    exact ⟨hmode, i, v, hmem, Collect.exceeds_iff.mp hmany⟩
  · obtain ⟨φ, hφ, hwarn, hends⟩ := hinv.follows.live hret
    have hfaithful := hinv.faithful i c φ hφ
    cases c with
    | collect metric =>
      cases a with
      | counters => exact hends.elim
      | metric v =>
        obtain ⟨hreg, hload, hpool⟩ := hends
        refine ⟨hreg, fun q f hq hf ↦ ?_, hpool⟩
        obtain ⟨n, hn⟩ := Option.isSome_iff_exists.mp (hreg.mpr (mem_registeredNames_of_loadOf hq))
        exact ⟨n, hn, hfaithful.counters q f n hf ((hload q hq).symm.trans hn)⟩
    | txMetrics =>
      cases a with
      | metric => exact hends.elim
      | counters started committed rolledBack active =>
        obtain ⟨hstarted, hcommitted, hrolledBack, hactive⟩ := hends
        exact ⟨hfaithful.counters _ _ _ rfl hstarted, hfaithful.counters _ _ _ rfl hcommitted,
          hfaithful.counters _ _ _ rfl hrolledBack, hfaithful.counters _ _ _ rfl hactive,
          fun hfits ↦ hfaithful.sum hfits _ _ hcommitted hrolledBack⟩

end Runs

/-- One call finds nine of ten connections, and warns. Another looks at the counters while a
transaction is begun and committed: it is returned as committed, and not as started. -/
theorem collect_sound_stale :
    ∃ (tr : List (CollectEvent Unit Bool)) (x : Collection Unit Bool),
      x.calls.Returned false (.collect "pg_pool_size") (.metric (some 9)) ∧
      x.calls.Returned true .txMetrics (.counters 0 1 0 0) ∧
      0 < tr.countP CollectEvent.isWarning ∧
      tr.countP CollectEvent.isWarning ≤ 1 ∧
      (0 < tr.countP CollectEvent.isWarning → (PgStore.withDefaults .pooled).mode = .pooled ∧
        ∃ i v, CollectEvent.call (.answered i .size v) ∈ tr ∧ 10 * 4 < v.toNat * 5) ∧
      ∀ i c a, x.calls.Returned i c a → Reports (.withDefaults .pooled) (Fits tr)
        (During (.withDefaults .pooled) 10 tr x i) c a := by
  obtain ⟨tr, p, hstore, -⟩ := run_committed
  have hrun : Run (CollectStep (.withDefaults .pooled) 10)
    (Collection.start : Collection Unit Bool) [] Collection.start := .nil
  have hrun := hrun.snoc (.call (.call false (.collect "pg_pool_size") rfl))
  have hrun := hrun.snoc (.call (.answer false CollectReq.size _ rfl (Gives.size 9)))
  have hrun := hrun.snoc (.call (.answer false CollectReq.numIdle _ rfl (Gives.numIdle 2)))
  have hrun := hrun.snoc (.call (.answer false CollectReq.size _ rfl (Gives.size 9)))
  have hrun := hrun.snoc (.call (.answer false CollectReq.numIdle _ rfl (Gives.numIdle 2)))
  have hrun := hrun.snoc (.call (.answer false CollectReq.swapWarned _ rfl Gives.swapWarned))
  have hrun := hrun.snoc (.call (.answer false CollectReq.warn _ rfl Gives.warn))
  have hrun := hrun.snoc (.call (.call true .txMetrics rfl))
  have hrun := hrun.snoc (.call (.answer true CollectReq.loadStarted _ rfl Gives.loadStarted))
  have hrun := hrun.trans (hstore.map (fun r ↦ (⟨r, _⟩ : Collection Unit Bool)) CollectEvent.store
    fun _ _ _ hstep ↦ .store hstep)
  have hrun := hrun.snoc (.call (.answer true CollectReq.loadCommitted _ rfl Gives.loadCommitted))
  have hrun := hrun.snoc (.call (.answer true CollectReq.loadRolledBack _ rfl Gives.loadRolledBack))
  have hrun := hrun.snoc (.call (.answer true CollectReq.loadActive _ rfl Gives.loadActive))
  refine ⟨_, _, ?_, ?_, ?_, collect_sound hrun⟩
  · rfl
  · rfl
  · rw [List.countP_pos_iff]
    exact ⟨.call (.answered false .warn ()), by simp, rfl⟩

end SurrealPg
