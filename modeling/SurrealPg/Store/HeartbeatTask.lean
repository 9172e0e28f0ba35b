import SurrealPg.Semantics.Loop
import SurrealPg.Store.Backoff
import SurrealPg.Store.Heartbeat
import SurrealPg.Store.Service

/-!
# The heartbeat task

`direct_mode_heartbeat` as it is written: a loop of awaits, each in a `select!` with the
cancellation of the token. A `select!` takes any branch that is ready, so an await may complete
although the token is cancelled, and it is given up only if the token is. The token is that of the
store, cancelled by what others do with its clones.

The typestate of the loop is its program counter, together with the number of failures where a
later step needs it. Everything about the task is proved on it: what it holds, how it ends, and what
it has done when it is looked at round by round.
-/

namespace SurrealPg

open Semantics Backoff

/-! ## When the token is cancelled -/

namespace StoreHeap

variable {ι : Type}

/-- The operation cancels the token of store `f`: `new` fails, a value is shut down, or the last
owner of one lets go. -/
def Stops (f : ι) (h : StoreHeap ι) : HeapOp ι → Prop
  | .newFailed g => g = f
  | .shutdown v => ∃ y, h.value v = some y ∧ y.shared = f
  | .drop v => ∃ y, h.value v = some y ∧ y.shared = f ∧ y.owners = 1
  | _ => False

theorem mode_cancelHeartbeat (x : Shared) : x.cancelHeartbeat.mode = x.mode := by
  rw [Shared.cancelHeartbeat]
  split <;> rfl

variable [DecidableEq ι] {f g : ι} {h h' : StoreHeap ι} {e : HeapOp ι} {x z z' : Shared}

omit [DecidableEq ι] in
theorem cancelHeartbeat_of_direct (hmode : x.mode = .direct) :
    x.cancelHeartbeat = { x with cancelled := true } := by
  rw [Shared.cancelHeartbeat, hmode]

/-- What becomes of the token of `f` when what store `g` shares is changed, for `g` only. -/
theorem shared_setShared {P : Prop} (hx : h.shared f = some x) (hmode : x.mode = .direct)
    (hg : h.shared g = some z) (hz' : z'.mode = z.mode)
    (hP : f = g → (z'.cancelled = true ↔ z.cancelled = true ∨ P)) (hne : f ≠ g → ¬P) :
    ∃ x', (h.setShared g z').shared f = some x' ∧ x'.mode = .direct ∧
      (x'.cancelled = true ↔ x.cancelled = true ∨ P) := by
  rw [setShared_shared]
  split_ifs with hfg
  · subst hfg
    obtain rfl : x = z := Option.some.inj (hx.symm.trans hg)
    exact ⟨z', rfl, hz'.trans hmode, hP rfl⟩
  · exact ⟨x, hx, hmode, (or_iff_left (hne hfg)).symm⟩

/-- **The token of a direct-mode store** is cancelled by these operations and stays cancelled. -/
theorem shared_step (hstep : Step h e h') (hx : h.shared f = some x) (hmode : x.mode = .direct) :
    ∃ x', h'.shared f = some x' ∧ x'.mode = .direct ∧
      (x'.cancelled = true ↔ x.cancelled = true ∨ h.Stops f e) := by
  cases hstep with
  | @newCalled g mode hg =>
    refine ⟨x, ?_, hmode, (or_iff_left id).symm⟩
    rw [setShared_shared, if_neg, hx]
    rintro rfl
    rw [hg] at hx
    cases hx
  | @newFailed g z hg hstage =>
    refine shared_setShared hx hmode hg (mode_cancelHeartbeat z) (fun hfg ↦ ?_)
      fun hfg hgf ↦ hfg hgf.symm
    subst hfg
    obtain rfl : x = z := Option.some.inj (hx.symm.trans hg)
    rw [Shared.dropGuard, if_pos rfl, cancelHeartbeat_of_direct hmode]
    exact iff_of_true rfl (Or.inr rfl)
  | newReturned hg hstage hv =>
    exact shared_setShared hx hmode hg rfl (fun _ ↦ (or_iff_left id).symm) fun _ ↦ id
  | clone hv hpos hfree => exact ⟨x, hx, hmode, (or_iff_left id).symm⟩
  | cloneArc hv hpos => exact ⟨x, hx, hmode, (or_iff_left id).symm⟩
  | @drop v y z hv hpos hz =>
    have hstops : h.Stops f (.drop v) ↔ y.shared = f ∧ y.owners = 1 := by
      constructor
      · rintro ⟨y', hv', hy⟩
        obtain rfl : y = y' := Option.some.inj (hv.symm.trans hv')
        exact hy
      · exact fun hy ↦ ⟨y, hv, hy⟩
    rw [hstops, dropValue]
    split_ifs with hone
    · refine shared_setShared (h := h.setValue v _) hx hmode hz (mode_cancelHeartbeat z)
        (fun hfg ↦ ?_) fun hfg hgf ↦ hfg hgf.1.symm
      subst hfg
      obtain rfl : x = z := Option.some.inj (hx.symm.trans hz)
      rw [cancelHeartbeat_of_direct hmode]
      exact iff_of_true rfl (Or.inr ⟨rfl, hone⟩)
    · exact ⟨x, hx, hmode, (or_iff_left fun hy ↦ hone hy.2).symm⟩
  | @shutdown v y z hv hpos hz =>
    have hstops : h.Stops f (.shutdown v) ↔ y.shared = f := by
      constructor
      · rintro ⟨y', hv', hy⟩
        obtain rfl : y = y' := Option.some.inj (hv.symm.trans hv')
        exact hy
      · exact fun hy ↦ ⟨y, hv, hy⟩
    rw [hstops]
    refine shared_setShared hx hmode hz (mode_cancelHeartbeat _) (fun hfg ↦ ?_)
      fun hfg hgf ↦ hfg hgf.symm
    subst hfg
    obtain rfl : x = z := Option.some.inj (hx.symm.trans hz)
    rw [cancelHeartbeat_of_direct (x := { x with shuttingDown := true }) hmode]
    exact iff_of_true rfl (Or.inr rfl)

end StoreHeap

def HEARTBEAT_TIMEOUT : Duration := .fromSecs 10

/-- The parameters of `direct_mode_heartbeat`. -/
structure HeartbeatTask where
  connectTimeout : Duration
  interval : Duration
  keepaliveSql : RawSql
  sessionSql : RawSql
  /-- `connect_direct` refuses a timeout of zero. -/
  connectTimeout_pos : connectTimeout.isZero = false

namespace HeartbeatTask

/-! ## The loop -/

/-- The connection that the loop keeps from round to round. -/
def held (conn : Bool) : StoreNote := if conn then .direct else .unconnected

/-- `SELECT 1` on the connection taken out of the variable. Only a healthy one is put back. -/
def select1 (consecutiveFailures : ℕ) : Service (Flow Heartbeat Unit) := do
  match ← Service.executeTimed HEARTBEAT_TIMEOUT .select1 with
  | some (.ok _) => return .again ⟨true, 0⟩
  | some (.error _) | none => do
    Service.closeConn
    return .again ⟨false, increment consecutiveFailures⟩

/-- One round. -/
def body (t : HeartbeatTask) (h : Heartbeat) : Service (Flow Heartbeat Unit) := do
  Service.sleep t.interval (held h.conn)
  if ← Service.isCancelled then do
    Service.release (held h.conn)
    return .exit ()
  else if h.conn then select1 h.consecutiveFailures
  else do
    match ← Service.ofStore
        (PgStore.connectDirectWithSession t.connectTimeout t.keepaliveSql t.sessionSql) with
    | .ok _ => select1 0
    | .error _ => do
      let consecutiveFailures := increment h.consecutiveFailures
      Service.sleep (.fromSecs (backoffSecs consecutiveFailures)) .unconnected
      return .again ⟨false, consecutiveFailures⟩

/-! ## Its program counter -/

/-- Where in a round the loop is. -/
inductive Phase
  | resting (h : Heartbeat)
  | checking (h : Heartbeat)
  | leaving
  | connecting (consecutiveFailures : ℕ)
  | keepalive
  | session
  | querying (consecutiveFailures : ℕ)
  | closing (consecutiveFailures : ℕ)
  | backingOff (consecutiveFailures : ℕ)
  /-- The round is over, and the next begins with `h`. -/
  | finished (h : Heartbeat)
  | exited

namespace Phase

/-- The connections that the task has open. -/
def conns : Phase → ℕ
  | resting h | checking h | finished h => h.conn.toNat
  | leaving | keepalive | session | querying _ | closing _ => 1
  | connecting _ | backingOff _ | exited => 0

/-- What is awaited, and what is dropped if that is given up. -/
def may (t : HeartbeatTask) : Phase → ServiceReq → Option StoreNote → Prop
  | resting h, q, u => q = .sleep t.interval ∧ u = some (held h.conn)
  | checking _, q, u => q = .isCancelled ∧ u = none
  | leaving, q, u | closing _, q, u => q = .closeConn ∧ u = none
  | connecting _, q, u => q = .store .connect ∧ u = some .unconnected
  | keepalive, q, u => q = .store (.executeTimed t.keepaliveSql) ∧ u = some .direct
  | session, q, u => q = .store (.executeTimed t.sessionSql) ∧ u = some .direct
  | querying _, q, u => q = .executeTimed HEARTBEAT_TIMEOUT .select1 ∧ u = some .direct
  | backingOff n, q, u => q = .sleep (.fromSecs (backoffSecs n)) ∧ u = some .unconnected
  | finished _, _, _ | exited, _, _ => False

/-- What an answer leads to. -/
def next : Phase → (q : ServiceReq) → q.Answer → Option Phase
  | resting h, .sleep _, _ => some (checking h)
  | checking h, .isCancelled, cancelled =>
    if cancelled then some (if h.conn then leaving else exited)
    else some (if h.conn then querying h.consecutiveFailures else connecting h.consecutiveFailures)
  | leaving, .closeConn, _ => some exited
  | connecting _, .store .connect, some (.ok _) => some keepalive
  | connecting n, .store .connect, _ => some (backingOff (increment n))
  | keepalive, .store (.executeTimed _), _ => some session
  | session, .store (.executeTimed _), _ => some (querying 0)
  | querying _, .executeTimed .., some (.ok _) => some (finished ⟨true, 0⟩)
  | querying n, .executeTimed .., _ => some (closing (increment n))
  | closing n, .closeConn, _ => some (finished ⟨false, n⟩)
  | backingOff n, .sleep _, _ => some (finished ⟨false, n⟩)
  | _, _, _ => none

/-- How a round ends. -/
def ends : Phase → Flow Heartbeat Unit → Prop
  | φ, .again h => φ = finished h
  | φ, .exit _ => φ = exited

end Phase

def typestate (t : HeartbeatTask) :
    Typestate Heartbeat ServiceReq ServiceReq.Answer StoreNote (Flow Heartbeat Unit) Phase where
  start := .resting
  may _ := Phase.may t
  next := Phase.next
  ends _ := Phase.ends

variable {t : HeartbeatTask}

theorem select1_follows (n : ℕ) :
    (select1 n).Follows (Phase.may t) Phase.next Phase.ends (.querying n) := by
  refine ⟨⟨rfl, rfl⟩, ?_⟩
  rintro (_ | e | _) φ hφ <;> obtain rfl := Option.some.inj hφ
  · refine ⟨⟨rfl, rfl⟩, ?_⟩
    rintro _ φ hφ
    obtain rfl := Option.some.inj hφ
    rfl
  · refine ⟨⟨rfl, rfl⟩, ?_⟩
    rintro _ φ hφ
    obtain rfl := Option.some.inj hφ
    rfl
  · rfl

theorem connect_follows (t : HeartbeatTask) (n : ℕ) :
    (Service.ofStore (PgStore.connectDirectWithSession t.connectTimeout t.keepaliveSql
        t.sessionSql)).Follows (Phase.may t) Phase.next
      (fun φ r ↦ φ = if r.isOk then .querying 0 else .backingOff (increment n))
      (.connecting n) := by
  rw [PgStore.connectDirectWithSession, PgStore.connectDirect, t.connectTimeout_pos]
  refine ⟨⟨rfl, rfl⟩, ?_⟩
  rintro (_ | e | _) φ hφ <;> obtain rfl := Option.some.inj hφ
  · rfl
  · rfl
  · refine ⟨⟨rfl, rfl⟩, fun _ φ hφ ↦ ?_⟩
    obtain rfl := Option.some.inj hφ
    refine ⟨⟨rfl, rfl⟩, fun _ φ hφ ↦ ?_⟩
    obtain rfl := Option.some.inj hφ
    rfl

/-- **The loop follows its program counter.** -/
theorem body_follows (t : HeartbeatTask) (h : Heartbeat) :
    (t.body h).Follows (Phase.may t) Phase.next Phase.ends (.resting h) := by
  refine ⟨⟨rfl, rfl⟩, fun _ φ hφ ↦ ?_⟩
  obtain rfl := Option.some.inj hφ
  refine ⟨⟨rfl, rfl⟩, fun cancelled φ hφ ↦ ?_⟩
  obtain ⟨conn, n⟩ := h
  cases cancelled <;> cases conn <;> obtain rfl := Option.some.inj hφ
  · refine (connect_follows t n).bind fun φ r hφ ↦ ?_
    subst hφ
    cases r with
    | ok _ => exact select1_follows 0
    | error _ =>
      refine ⟨⟨rfl, rfl⟩, fun _ φ hφ ↦ ?_⟩
      obtain rfl := Option.some.inj hφ
      rfl
  · exact select1_follows n
  · rfl
  · refine ⟨⟨rfl, rfl⟩, fun _ φ hφ ↦ ?_⟩
    obtain rfl := Option.some.inj hφ
    rfl

/-- All that an answer can do. -/
inductive Moves (t : HeartbeatTask) : Phase → (q : ServiceReq) → q.Answer → Phase → Prop
  | rested (h : Heartbeat) : Moves t (.resting h) (.sleep t.interval) () (.checking h)
  | leave {h : Heartbeat} : h.conn = true → Moves t (.checking h) .isCancelled true .leaving
  | exit {h : Heartbeat} : h.conn = false → Moves t (.checking h) .isCancelled true .exited
  | query {h : Heartbeat} : h.conn = true →
    Moves t (.checking h) .isCancelled false (.querying h.consecutiveFailures)
  | connect {h : Heartbeat} : h.conn = false →
    Moves t (.checking h) .isCancelled false (.connecting h.consecutiveFailures)
  | left : Moves t .leaving .closeConn () .exited
  | connected (n : ℕ) (u : Unit) :
    Moves t (.connecting n) (.store .connect) (some (.ok u)) .keepalive
  | refused (n : ℕ) {r : Option (Except SqlxError Unit)} : (∀ u, r ≠ some (.ok u)) →
    Moves t (.connecting n) (.store .connect) r (.backingOff (increment n))
  | keptAlive (r : Option (Except SqlxError Unit)) :
    Moves t .keepalive (.store (.executeTimed t.keepaliveSql)) r .session
  | setUp (r : Option (Except SqlxError Unit)) :
    Moves t .session (.store (.executeTimed t.sessionSql)) r (.querying 0)
  | healthy (n : ℕ) (u : Unit) :
    Moves t (.querying n) (.executeTimed HEARTBEAT_TIMEOUT .select1) (some (.ok u))
      (.finished ⟨true, 0⟩)
  | broken (n : ℕ) {r : Option (Except SqlxError Unit)} : (∀ u, r ≠ some (.ok u)) →
    Moves t (.querying n) (.executeTimed HEARTBEAT_TIMEOUT .select1) r (.closing (increment n))
  | closed (n : ℕ) : Moves t (.closing n) .closeConn () (.finished ⟨false, n⟩)
  | backedOff (n : ℕ) :
    Moves t (.backingOff n) (.sleep (.fromSecs (backoffSecs n))) () (.finished ⟨false, n⟩)

theorem moves_of_may {φ : Phase} {q : ServiceReq} {u : Option StoreNote} (hmay : φ.may t q u)
    (r : q.Answer) : ∃ φ', φ.next q r = some φ' ∧ Moves t φ q r φ' := by
  cases φ with
  | resting h =>
    obtain ⟨rfl, -⟩ := hmay
    exact ⟨_, rfl, .rested h⟩
  | checking h =>
    obtain ⟨rfl, -⟩ := hmay
    obtain ⟨conn, n⟩ := h
    cases r <;> cases conn
    · exact ⟨_, rfl, .connect rfl⟩
    · exact ⟨_, rfl, .query rfl⟩
    · exact ⟨_, rfl, .exit rfl⟩
    · exact ⟨_, rfl, .leave rfl⟩
  | leaving =>
    obtain ⟨rfl, -⟩ := hmay
    exact ⟨_, rfl, .left⟩
  | connecting n =>
    obtain ⟨rfl, -⟩ := hmay
    rcases r with _ | e | u
    · exact ⟨_, rfl, .refused n (by simp)⟩
    · exact ⟨_, rfl, .refused n (by simp)⟩
    · exact ⟨_, rfl, .connected n u⟩
  | keepalive =>
    obtain ⟨rfl, -⟩ := hmay
    exact ⟨_, rfl, .keptAlive r⟩
  | session =>
    obtain ⟨rfl, -⟩ := hmay
    exact ⟨_, rfl, .setUp r⟩
  | querying n =>
    obtain ⟨rfl, -⟩ := hmay
    rcases r with _ | e | u
    · exact ⟨_, rfl, .broken n (by simp)⟩
    · exact ⟨_, rfl, .broken n (by simp)⟩
    · exact ⟨_, rfl, .healthy n u⟩
  | closing n =>
    obtain ⟨rfl, -⟩ := hmay
    exact ⟨_, rfl, .closed n⟩
  | backingOff n =>
    obtain ⟨rfl, -⟩ := hmay
    exact ⟨_, rfl, .backedOff n⟩
  | finished h | exited => exact hmay.elim

/-! ## The world it runs in -/

section World

variable {ι : Type}

/-- The stores with their clones, and the connections that the task has open. -/
structure World (ι : Type) where
  heap : StoreHeap ι
  conns : ℕ

/-- The token of store `f` is cancelled. -/
def World.cancelled (f : ι) (w : World ι) : Prop :=
  ∃ x, w.heap.shared f = some x ∧ x.cancelled = true

/-- What an answer does to the connections of the task. -/
def World.after (w : World ι) : (q : ServiceReq) → q.Answer → World ι
  | .store .connect, some (.ok _) => { w with conns := w.conns + 1 }
  | .closeConn, _ => { w with conns := w.conns - 1 }
  | _, _ => w

/-- What is held is dropped. -/
def World.drop (w : World ι) : StoreNote → World ι
  | .direct => { w with conns := w.conns - 1 }
  | .unconnected | .pooled => w

/-- Only the token is asked for what it is; all else may be answered in any way. -/
def World.gives (f : ι) (w : World ι) : (q : ServiceReq) → q.Answer → Prop
  | .isCancelled, b => b = true ↔ w.cancelled f
  | _, _ => True

/-- An await is given up only when the token is cancelled. -/
def server (f : ι) : Server Unit ServiceReq ServiceReq.Answer StoreNote (World ι) where
  answer _ w q r w' := w.gives f q r ∧ w' = w.after q r
  unwind _ w u w' := w.cancelled f ∧ w' = w.drop u

/-- What others do with the stores. -/
inductive World.Ambient [DecidableEq ι] : World ι → HeapOp ι → World ι → Prop
  | mk {h h' : StoreHeap ι} {n : ℕ} {e : HeapOp ι} : StoreHeap.Step h e h' →
    Ambient ⟨h, n⟩ e ⟨h', n⟩

/-- The state of the task of store `f` among the stores. -/
abbrev State (ι : Type) :=
  Looping Heartbeat ServiceReq ServiceReq.Answer StoreNote Unit (World ι)

abbrev Event (ι : Type) := LoopEvent (HeapOp ι) ServiceReq ServiceReq.Answer

/-- The task of store `f`, and all that goes on around it. -/
abbrev Step [DecidableEq ι] (t : HeartbeatTask) (f : ι) : State ι → Event ι → State ι → Prop :=
  Looping.Step (server f) World.Ambient t.body

/-- `PgStore::new` has spawned the task: the store is being built in direct mode. -/
structure Spawned (f : ι) (t : HeartbeatTask) (p : State ι) : Prop where
  shared_eq : p.mem.heap.shared f = some (.new .direct)
  conns_eq : p.mem.conns = 0
  task_eq : p.task = .live ⟨false, 0⟩ (t.body ⟨false, 0⟩)

/-! ## What holds of the task -/

/-- The task is on its way out, or gone. -/
def Leaving : Task Heartbeat Phase → Prop
  | .live _ .leaving | .live _ .exited | .dropped _ => True
  | .live .. => False

def conns : Task Heartbeat Phase → ℕ
  | .live _ φ => φ.conns
  | .dropped _ => 0

/-- What holds of the task of store `f` at any time. -/
structure Sound (f : ι) (w : World ι) (task : Task Heartbeat Phase) : Prop where
  direct : ∃ x, w.heap.shared f = some x ∧ x.mode = .direct
  conns_eq : w.conns = conns task
  stopped : Leaving task → w.cancelled f

variable {f : ι} {w w' : World ι}

theorem heap_after (q : ServiceReq) (r : q.Answer) : (w.after q r).heap = w.heap := by
  rw [World.after.eq_def]
  split <;> rfl

theorem heap_drop (u : StoreNote) : (w.drop u).heap = w.heap := by
  cases u <;> rfl

theorem cancelled_congr (h : w'.heap = w.heap) : w'.cancelled f ↔ w.cancelled f := by
  rw [World.cancelled, World.cancelled, h]

theorem after_connect {r : Option (Except SqlxError Unit)} (hr : ∀ u, r ≠ some (.ok u)) :
    w.after (.store .connect) r = w := by
  rcases r with _ | e | u
  · rfl
  · rfl
  · exact absurd rfl (hr u)

theorem conns_after {φ φ' : Phase} {q : ServiceReq} {r : q.Answer} (h : w.conns = φ.conns)
    (hmoves : Moves t φ q r φ') : (w.after q r).conns = φ'.conns := by
  cases hmoves with
  | rested | keptAlive | setUp | healthy | broken | backedOff => exact h
  | leave hconn | query hconn | exit hconn | connect hconn =>
    rw [Phase.conns, hconn] at h
    exact h
  | left | closed => exact congrArg (· - 1) h
  | connected => exact congrArg (· + 1) h
  | refused n hr =>
    rw [after_connect hr]
    exact h

/-- An await that is given up leaves no connection open. -/
theorem conns_drop {φ : Phase} {q : ServiceReq} {u : StoreNote} (h : w.conns = φ.conns)
    (hmay : φ.may t q (some u)) : (w.drop u).conns = 0 := by
  cases φ with
  | resting b =>
    obtain ⟨-, hu⟩ := hmay
    obtain rfl := Option.some.inj hu
    obtain ⟨conn, n⟩ := b
    cases conn with
    | false => exact h
    | true => exact congrArg (· - 1) h
  | connecting n | backingOff n =>
    obtain ⟨-, hu⟩ := hmay
    obtain rfl := Option.some.inj hu
    exact h
  | keepalive | session | querying n =>
    obtain ⟨-, hu⟩ := hmay
    obtain rfl := Option.some.inj hu
    exact congrArg (· - 1) h
  | checking b | leaving | closing n =>
    obtain ⟨-, hu⟩ := hmay
    cases hu
  | finished b | exited => exact hmay.elim

/-- Only a look at a cancelled token makes the task leave. -/
theorem cancelled_of_moves {φ φ' : Phase} {q : ServiceReq} {r : q.Answer}
    (hmoves : Moves t φ q r φ') (hgives : w.gives f q r) {l : Heartbeat}
    (hleaving : Leaving (.live l φ')) (hφ : Leaving (.live l φ) → w.cancelled f) :
    w.cancelled f := by
  cases hmoves with
  | leave | exit => exact hgives.mp rfl
  | left => exact hφ trivial
  | _ => exact hleaving.elim

theorem sound_turns [DecidableEq ι] (t : HeartbeatTask) (f : ι) :
    t.typestate.Turns (server f) World.Ambient fun _ w task ↦ Sound f w task := by
  refine ⟨?_, ?_, ?_, ?_⟩
  · rintro _ w l φ q u r _ ⟨hdirect, hconns, hstopped⟩ hmay ⟨hgives, rfl⟩
    obtain ⟨φ', hφ', hmoves⟩ := moves_of_may hmay r
    refine ⟨φ', hφ', ?_, conns_after hconns hmoves, fun hleaving ↦ ?_⟩
    · rwa [heap_after]
    · rw [cancelled_congr (heap_after q r)]
      exact cancelled_of_moves hmoves hgives hleaving hstopped
  · rintro _ w l φ l' ⟨hdirect, hconns, -⟩ rfl
    exact ⟨hdirect, hconns, False.elim⟩
  · rintro _ w l φ q u _ ⟨hdirect, hconns, -⟩ hmay ⟨hcancelled, rfl⟩
    refine ⟨?_, ?_, fun _ ↦ ?_⟩
    · rwa [heap_drop]
    · exact conns_drop hconns hmay
    · rwa [cancelled_congr (heap_drop u)]
  · rintro _ _ task e _ ⟨⟨x, hx, hmode⟩, hconns, hstopped⟩ ⟨hstep⟩
    obtain ⟨x', hx', hmode', hcancelled⟩ := StoreHeap.shared_step hstep hx hmode
    refine ⟨⟨x', hx', hmode'⟩, hconns, fun hleaving ↦ ?_⟩
    obtain ⟨x₀, hx₀, hc⟩ := hstopped hleaving
    obtain rfl : x = x₀ := Option.some.inj (hx.symm.trans hx₀)
    exact ⟨x', hx', hcancelled.mpr (Or.inl hc)⟩

/-! ## How it ends -/

/-- A bound on what the task still does once the token is cancelled. -/
def stepsLeft : Phase → ℕ
  | .exited => 0
  | .leaving => 1
  | .checking _ => 2
  | .resting _ => 3
  | .finished _ => 4
  | .closing _ | .backingOff _ => 5
  | .querying _ => 6
  | .session => 7
  | .keepalive => 8
  | .connecting _ => 9

/-- Whether the task still connects. -/
def connectsLeft : Phase → ℕ
  | .connecting _ => 1
  | _ => 0

/-- Whether it still sends `SELECT 1`. -/
def selectsLeft : Phase → ℕ
  | .connecting _ | .keepalive | .session | .querying _ => 1
  | _ => 0

def isConnect : Event ι → Bool
  | .answered (.store .connect) _ => true
  | _ => false

def isSelect : Event ι → Bool
  | .answered (.executeTimed _ .select1) _ => true
  | _ => false

/-- The store is in direct mode and its token is cancelled. -/
def World.Cancelled (f : ι) (w : World ι) : Prop :=
  ∃ x, w.heap.shared f = some x ∧ x.mode = .direct ∧ x.cancelled = true

theorem World.Cancelled.cancelled (h : w.Cancelled f) : w.cancelled f := by
  obtain ⟨x, hx, -, hc⟩ := h
  exact ⟨x, hx, hc⟩

theorem World.Cancelled.congr (h : w.Cancelled f) (hheap : w'.heap = w.heap) :
    w'.Cancelled f := by
  rwa [World.Cancelled, hheap]

theorem World.Cancelled.ambient [DecidableEq ι] {e : HeapOp ι} (h : w.Cancelled f)
    (hamb : Ambient w e w') : w'.Cancelled f := by
  obtain ⟨hstep⟩ := hamb
  obtain ⟨x, hx, hmode, hc⟩ := h
  obtain ⟨x', hx', hmode', hc'⟩ := StoreHeap.shared_step hstep hx hmode
  exact ⟨x', hx', hmode', hc'.mpr (Or.inl hc)⟩

/-- The answers that a cancelled task goes on from. -/
def Dismissed (φ φ' : Phase) : Prop := ∀ h, φ = .checking h → φ' = .leaving ∨ φ' = .exited

theorem dismissed_of_cancelled {φ φ' : Phase} {q : ServiceReq} {r : q.Answer}
    (hmoves : Moves t φ q r φ') (hgives : w.gives f q r) (hc : w.cancelled f) :
    Dismissed φ φ' := by
  rintro h rfl
  cases hmoves with
  | leave => exact Or.inl rfl
  | exit => exact Or.inr rfl
  | query | connect => exact absurd (hgives.mpr hc) Bool.false_ne_true

/-- What bounds the events of a kind once the token is cancelled. -/
structure Bounds (t : HeartbeatTask) (P : Event ι → Bool) (m : Phase → ℕ) : Prop where
  answer : ∀ {φ φ' q r}, Moves t φ q r φ' → Dismissed φ φ' →
    m φ' + (P (.answered q r)).toNat ≤ m φ
  turn : ∀ h, m (.resting h) + (P .turned).toNat ≤ m (.finished h)
  abandon : ∀ {φ q u}, φ.may t q (some u) → (P (.abandoned q)).toNat ≤ m φ
  not_ambient : ∀ e, P (.ambient e) = false

theorem Bounds.dwindles [DecidableEq ι] {P : Event ι → Bool} {m : Phase → ℕ}
    (h : Bounds t P m) (f : ι) :
    t.typestate.Dwindles (server f) World.Ambient (World.Cancelled f) P m where
  answer := by
    rintro w l φ q u r _ hc hmay ⟨hgives, rfl⟩
    obtain ⟨φ', hφ', hmoves⟩ := moves_of_may hmay r
    refine ⟨hc.congr (heap_after q r), φ', hφ', h.answer hmoves ?_⟩
    exact dismissed_of_cancelled hmoves hgives hc.cancelled
  turn := by
    rintro l φ l' rfl
    exact h.turn l'
  abandon := by
    rintro w l φ q u _ hc hmay ⟨-, rfl⟩
    exact ⟨hc.congr (heap_drop u), h.abandon hmay⟩
  ambient := fun hc hamb ↦ hc.ambient hamb
  not_ambient := h.not_ambient

theorem bounds_own (t : HeartbeatTask) : Bounds t (LoopEvent.own : Event ι → Bool) stepsLeft where
  answer := by
    intro φ φ' q r hmoves hdismissed
    cases hmoves with
    | query | connect => obtain h | h := hdismissed _ rfl <;> cases h
    | _ => exact Nat.le_of_ble_eq_true rfl
  turn _ := le_rfl
  abandon := by
    intro φ q u hmay
    cases φ with
    | finished | exited => exact hmay.elim
    | _ => exact Nat.succ_le_succ (Nat.zero_le _)
  not_ambient _ := rfl

theorem bounds_isConnect (t : HeartbeatTask) :
    Bounds t (isConnect : Event ι → Bool) connectsLeft where
  answer := by
    intro φ φ' q r hmoves hdismissed
    cases hmoves with
    | query | connect => obtain h | h := hdismissed _ rfl <;> cases h
    | _ => exact Nat.le_of_ble_eq_true rfl
  turn _ := le_rfl
  abandon _ := Nat.zero_le _
  not_ambient _ := rfl

theorem bounds_isSelect (t : HeartbeatTask) :
    Bounds t (isSelect : Event ι → Bool) selectsLeft where
  answer := by
    intro φ φ' q r hmoves hdismissed
    cases hmoves with
    | query | connect => obtain h | h := hdismissed _ rfl <;> cases h
    | _ => exact Nat.le_of_ble_eq_true rfl
  turn _ := le_rfl
  abandon _ := Nat.zero_le _
  not_ambient _ := rfl

/-- Steps for which the task waits for nobody. -/
def isUnaided : Event ι → Bool
  | .turned | .abandoned _ | .answered .isCancelled _ | .answered .closeConn _ => true
  | .answered .. | .ambient _ => false

/-- **No deadlock.** A task that is cancelled and has not ended can go on without the server. -/
theorem progress_of_cancelled [DecidableEq ι] {p : State ι} {task : Task Heartbeat Phase}
    (hf : p.Follows t.typestate task) (hc : p.mem.cancelled f) :
    p.Ended ∨ ∃ e p', Step t f p e p' ∧ isUnaided e = true := by
  obtain ⟨w, task'⟩ := p
  cases task' with
  | dropped l => exact Or.inl trivial
  | live l d =>
    obtain ⟨φ, -, hd⟩ := hf
    match d, hd with
    | .done (.again h), _ => exact Or.inr ⟨_, _, .turn, rfl⟩
    | .done (.exit a), _ => exact Or.inl ⟨a, rfl⟩
    | .ask q (some u) next, _ => exact Or.inr ⟨_, _, .abandon ⟨hc, rfl⟩, rfl⟩
    | .ask q none next, ⟨hmay, _⟩ =>
      right
      cases φ with
      | checking h =>
        obtain ⟨rfl, -⟩ := hmay
        exact ⟨_, _, .answer (r := true) ⟨iff_of_true rfl hc, rfl⟩, rfl⟩
      | leaving | closing n =>
        obtain ⟨rfl, -⟩ := hmay
        exact ⟨_, _, .answer (r := ()) ⟨trivial, rfl⟩, rfl⟩
      | finished h | exited => exact hmay.elim
      | _ => cases hmay.2

theorem follows_spawned {p₀ : State ι} (h : Spawned f t p₀) :
    p₀.Follows t.typestate (.live ⟨false, 0⟩ (.resting ⟨false, 0⟩)) := by
  rw [Looping.Follows, h.task_eq]
  exact ⟨_, rfl, t.body_follows _⟩

theorem exists_sound [DecidableEq ι] {p₀ p : State ι} {tr : List (Event ι)}
    (hspawned : Spawned f t p₀) (hrun : Run (Step t f) p₀ tr p) :
    ∃ task, Sound f p.mem task ∧ p.Follows t.typestate task := by
  have hstart : Sound f p₀.mem (.live ⟨false, 0⟩ (.resting ⟨false, 0⟩)) :=
    ⟨⟨_, hspawned.shared_eq, rfl⟩, hspawned.conns_eq, False.elim⟩
  exact (sound_turns t f).run_from t.body_follows hstart (follows_spawned hspawned) hrun

theorem leaving_of_ended {p : State ι} {task : Task Heartbeat Phase}
    (hf : p.Follows t.typestate task) (hend : p.Ended) : Leaving task ∧ conns task = 0 := by
  obtain ⟨w, task'⟩ := p
  cases task' with
  | dropped l =>
    obtain rfl : task = .dropped l := hf
    exact ⟨trivial, rfl⟩
  | live l d =>
    obtain ⟨φ, rfl, hd⟩ := hf
    obtain ⟨a, rfl⟩ := hend
    obtain rfl : φ = .exited := hd
    exact ⟨trivial, rfl⟩

/-- The task of the default configuration. -/
def withDefaults : HeartbeatTask where
  connectTimeout := .fromSecs 30
  interval := (default : PgTuneConfig).keepaliveIdle
  keepaliveSql := (default : PgTuneConfig).keepaliveSql
  sessionSql := .session (default : PgTuneConfig).sessionSettings
  connectTimeout_pos := rfl

/-- It has just been spawned. -/
def atFirst : State ℕ where
  mem := ⟨StoreHeap.empty.setShared 0 (.new .direct), 0⟩
  task := .live ⟨false, 0⟩ (withDefaults.body ⟨false, 0⟩)

theorem spawned_atFirst : Spawned 0 withDefaults atFirst := ⟨rfl, rfl, rfl⟩

/-- **The heartbeat holds at most one connection, and lives until it is stopped**, whatever the
server answers and whatever is done with the stores. -/
theorem heartbeat_sound [DecidableEq ι] (t : HeartbeatTask) {f : ι} {p₀ p : State ι}
    {tr : List (Event ι)} (hspawned : Spawned f t p₀) (hrun : Run (Step t f) p₀ tr p) :
    p.mem.conns ≤ 1 ∧ (p.Ended → p.mem.conns = 0 ∧ p.mem.cancelled f) := by
  obtain ⟨task, ⟨-, hconns, hstopped⟩, hf⟩ := exists_sound hspawned hrun
  refine ⟨?_, fun hend ↦ ?_⟩
  · rw [hconns]
    cases task with
    | dropped l => exact Nat.zero_le _
    | live l φ =>
      cases φ with
      | resting h | checking h | finished h => exact Bool.toNat_le _
      | connecting | backingOff | exited => exact Nat.zero_le _
      | _ => exact le_rfl
  · obtain ⟨hleaving, hzero⟩ := leaving_of_ended hf hend
    exact ⟨hconns.trans hzero, hstopped hleaving⟩

/-- One round in which the server cannot be reached, and one in which everything is answered. -/
def twoRounds : List (Event ℕ) :=
  [.answered (.sleep withDefaults.interval) (), .answered .isCancelled false,
   .answered (.store .connect) none, .answered (.sleep (.fromSecs 5)) (), .turned,
   .answered (.sleep withDefaults.interval) (), .answered .isCancelled false,
   .answered (.store .connect) (some (.ok ())),
   .answered (.store (.executeTimed withDefaults.keepaliveSql)) (some (.ok ())),
   .answered (.store (.executeTimed withDefaults.sessionSql)) (some (.ok ())),
   .answered (.executeTimed HEARTBEAT_TIMEOUT .select1) (some (.ok ())), .turned]

/-- What they lead to. -/
def connected : State ℕ where
  mem := ⟨atFirst.mem.heap, 1⟩
  task := .live ⟨true, 0⟩ (withDefaults.body ⟨true, 0⟩)

theorem run_twoRounds : Run (Step withDefaults 0) atFirst twoRounds connected := by
  have hgoing (n : ℕ) : (⟨atFirst.mem.heap, n⟩ : World ℕ).gives 0 .isCancelled false :=
    ⟨nofun, fun ⟨x, hx, hcancelled⟩ ↦ by
      obtain rfl := Option.some.inj hx
      exact hcancelled⟩
  have h : Run (Step withDefaults 0) atFirst [] atFirst := .nil
  have h := h.snoc (.answer (r := ()) ⟨trivial, rfl⟩)
  have h := h.snoc (.answer (r := false) (by exact ⟨hgoing 0, rfl⟩))
  have h := h.snoc (.answer (r := none) ⟨trivial, rfl⟩)
  have h := h.snoc (.answer (r := ()) ⟨trivial, rfl⟩)
  have h := h.snoc .turn
  have h := h.snoc (.answer (r := ()) ⟨trivial, rfl⟩)
  have h := h.snoc (.answer (r := false) (by exact ⟨hgoing 0, rfl⟩))
  have h := h.snoc (.answer (r := some (.ok ())) ⟨trivial, rfl⟩)
  have h := h.snoc (.answer (r := some (.ok ())) ⟨trivial, rfl⟩)
  have h := h.snoc (.answer (r := some (.ok ())) ⟨trivial, rfl⟩)
  have h := h.snoc (.answer (r := some (.ok ())) ⟨trivial, rfl⟩)
  exact h.snoc .turn

/-- A task with a connection, whose store is then not created: it closes the connection and ends. -/
theorem heartbeat_sound_newFailed : ∃ p tr, Run (Step withDefaults 0) connected tr p ∧
    (connected.mem.conns ≤ 1 ∧
      (connected.Ended → connected.mem.conns = 0 ∧ connected.mem.cancelled 0)) ∧
    p.Ended ∧ p.mem.conns ≤ 1 ∧ (p.Ended → p.mem.conns = 0 ∧ p.mem.cancelled 0) := by
  have h : Run (Step withDefaults 0) connected [] connected := .nil
  have h := h.snoc (.answer (r := ()) ⟨trivial, rfl⟩)
  have h := h.snoc (.ambient ⟨.newFailed (f := 0) (x := .new .direct) rfl rfl⟩)
  have h := h.snoc (.answer (r := true) ⟨iff_of_true rfl ⟨_, rfl, rfl⟩, rfl⟩)
  have h := h.snoc (.answer (r := ()) ⟨trivial, rfl⟩)
  exact ⟨_, _, h, heartbeat_sound withDefaults spawned_atFirst run_twoRounds, ⟨(), rfl⟩,
    heartbeat_sound withDefaults spawned_atFirst (run_twoRounds.trans h)⟩

/-- **A heartbeat that is stopped ends.** From the moment that `new` fails, a value of the store is
shut down or the last owner of one lets go, the task takes nine steps at most, with one connection
attempt and one `SELECT 1` among them at most; and until it has ended there is always a step for
which it waits for nobody. -/
theorem heartbeat_stops [DecidableEq ι] (t : HeartbeatTask) {f : ι} {p₀ p p₁ p' : State ι}
    {tr tr' : List (Event ι)} {e : HeapOp ι} (hspawned : Spawned f t p₀)
    (hrun : Run (Step t f) p₀ tr p) (hstep : Step t f p (.ambient e) p₁)
    (hstops : p.mem.heap.Stops f e) (hrun' : Run (Step t f) p₁ tr' p') :
    tr'.countP LoopEvent.own ≤ 9 ∧ tr'.countP isConnect ≤ 1 ∧ tr'.countP isSelect ≤ 1 ∧
      (p'.Ended ∨ ∃ e' p'', Step t f p' e' p'' ∧ isUnaided e' = true) := by
  obtain ⟨task, ⟨⟨x, hx, hmode⟩, -, -⟩, hf⟩ := exists_sound hspawned hrun
  have hc₁ : p₁.mem.Cancelled f ∧ p₁.Follows t.typestate task := by
    cases hstep with
    | ambient hamb =>
      obtain ⟨hheap⟩ := hamb
      obtain ⟨x', hx', hmode', hcancelled⟩ := StoreHeap.shared_step hheap hx hmode
      exact ⟨⟨x', hx', hmode', hcancelled.mpr (Or.inr hstops)⟩, hf⟩
  obtain ⟨hc₁, hf₁⟩ := hc₁
  have hbound {P : Event ι → Bool} {m : Phase → ℕ} {n : ℕ} (hb : Bounds t P m)
      (hm : ∀ φ, m φ ≤ n) : tr'.countP P ≤ n := by
    obtain ⟨_, ⟨-, hle⟩, -⟩ := (hb.dwindles f).run_from t.body_follows hc₁ hf₁ hrun'
    have hmeasure : task.measure m ≤ n := by
      cases task with
      | dropped l => exact Nat.zero_le _
      | live l φ => exact hm φ
    omega
  refine ⟨hbound (bounds_own t) ?_, hbound (bounds_isConnect t) ?_,
    hbound (bounds_isSelect t) ?_, ?_⟩
  · intro φ
    cases φ <;> exact Nat.le_of_ble_eq_true rfl
  · intro φ
    cases φ <;> exact Nat.le_of_ble_eq_true rfl
  · intro φ
    cases φ <;> exact Nat.le_of_ble_eq_true rfl
  · obtain ⟨task', ⟨hc', -⟩, hf'⟩ :=
      ((bounds_own t).dwindles f).run_from t.body_follows hc₁ hf₁ hrun'
    exact progress_of_cancelled hf' hc'.cancelled

/-- `new` has failed while the task sleeps. -/
def atFailure : State ℕ :=
  { atFirst with mem := ⟨atFirst.mem.heap.setShared 0 ⟨.direct, .failed, true, false⟩, 0⟩ }

/-- The task gives up its sleep. -/
theorem heartbeat_stops_newFailed : ∃ p' tr', Run (Step withDefaults 0) atFailure tr' p' ∧
    p'.Ended ∧ tr'.countP LoopEvent.own ≤ 9 ∧ tr'.countP isConnect ≤ 1 ∧ tr'.countP isSelect ≤ 1 ∧
      (p'.Ended ∨ ∃ e' p'', Step withDefaults 0 p' e' p'' ∧ isUnaided e' = true) := by
  have hstep : Step withDefaults 0 atFirst (.ambient (.newFailed 0)) atFailure :=
    .ambient ⟨.newFailed (x := .new .direct) rfl rfl⟩
  have hrun : Run (Step withDefaults 0) atFailure [.abandoned (.sleep withDefaults.interval)]
      ⟨atFailure.mem, .dropped ⟨false, 0⟩⟩ := .single (.abandon ⟨⟨_, rfl, rfl⟩, rfl⟩)
  exact ⟨_, _, hrun, trivial,
    heartbeat_stops withDefaults spawned_atFirst .nil hstep rfl hrun⟩

/-! ## Round by round -/

def isOk : Option (Except SqlxError Unit) → Bool
  | some (.ok _) => true
  | _ => false

/-- What the loop has done, in the words of the rounds. -/
def visible : Event ι → List Action
  | .answered (.sleep d) _ => [.sleep d]
  | .answered (.store .connect) r => [.connect (isOk r)]
  | .answered (.executeTimed _ .select1) r => [.select1 (isOk r)]
  | _ => []

/-- What has been done in a round begun with `l`. -/
def Journal (t : HeartbeatTask) (l : Heartbeat) (part : List Action) : Phase → Prop
  | .resting h => h = l ∧ part = []
  | .checking h => h = l ∧ part = [.sleep t.interval]
  | .leaving | .exited => part = [.sleep t.interval]
  | .connecting n => l.conn = false ∧ n = l.consecutiveFailures ∧ part = [.sleep t.interval]
  | .keepalive | .session => l.conn = false ∧ part = [.sleep t.interval, .connect true]
  | .querying n =>
    l.conn = true ∧ n = l.consecutiveFailures ∧ part = [.sleep t.interval] ∨
      l.conn = false ∧ n = 0 ∧ part = [.sleep t.interval, .connect true]
  | .closing n =>
    l.conn = true ∧ n = increment l.consecutiveFailures ∧
        part = [.sleep t.interval, .select1 false] ∨
      l.conn = false ∧ n = increment 0 ∧
        part = [.sleep t.interval, .connect true, .select1 false]
  | .backingOff n =>
    l.conn = false ∧ n = increment l.consecutiveFailures ∧
      part = [.sleep t.interval, .connect false]
  | .finished h => ∃ answers, Backoff.round t.interval l answers = (part, h)

theorem isOk_eq_false {r : Option (Except SqlxError Unit)} (hr : ∀ u, r ≠ some (.ok u)) :
    isOk r = false := by
  rcases r with _ | e | u
  · rfl
  · rfl
  · exact absurd rfl (hr u)

/-- An answer adds to the round what it lets be seen. -/
theorem journal_moves {l : Heartbeat} {part : List Action} {φ φ' : Phase} {q : ServiceReq}
    {r : q.Answer} (h : Journal t l part φ) (hmoves : Moves t φ q r φ') :
    Journal t l (part ++ visible (.answered q r : Event ι)) φ' := by
  obtain ⟨conn, n⟩ := l
  cases hmoves with
  | rested =>
    obtain ⟨rfl, rfl⟩ := h
    exact ⟨rfl, rfl⟩
  | leave | exit =>
    obtain ⟨rfl, rfl⟩ := h
    rfl
  | query hconn =>
    obtain ⟨rfl, rfl⟩ := h
    exact Or.inl ⟨hconn, rfl, rfl⟩
  | connect hconn =>
    obtain ⟨rfl, rfl⟩ := h
    exact ⟨hconn, rfl, rfl⟩
  | left =>
    obtain rfl := h
    rfl
  | connected =>
    obtain ⟨hconn, -, rfl⟩ := h
    exact ⟨hconn, rfl⟩
  | refused m hr =>
    obtain ⟨hconn, rfl, rfl⟩ := h
    exact ⟨hconn, rfl, by rw [visible, isOk_eq_false hr]; rfl⟩
  | keptAlive =>
    obtain ⟨hconn, rfl⟩ := h
    exact ⟨hconn, rfl⟩
  | setUp =>
    obtain ⟨hconn, rfl⟩ := h
    exact Or.inr ⟨hconn, rfl, rfl⟩
  | healthy =>
    obtain ⟨rfl, -, rfl⟩ | ⟨rfl, -, rfl⟩ := h
    · exact ⟨⟨true, true⟩, rfl⟩
    · exact ⟨⟨true, true⟩, rfl⟩
  | broken m hr =>
    rw [visible, isOk_eq_false hr]
    obtain ⟨rfl, rfl, rfl⟩ | ⟨rfl, rfl, rfl⟩ := h
    · exact Or.inl ⟨rfl, rfl, rfl⟩
    · exact Or.inr ⟨rfl, rfl, rfl⟩
  | closed =>
    obtain ⟨rfl, rfl, rfl⟩ | ⟨rfl, rfl, rfl⟩ := h
    · exact ⟨⟨true, false⟩, rfl⟩
    · exact ⟨⟨true, false⟩, rfl⟩
  | backedOff =>
    obtain ⟨rfl, rfl, rfl⟩ := h
    exact ⟨⟨false, false⟩, rfl⟩

/-- What has been done of a round is the beginning of one. -/
theorem prefix_of_journal {l : Heartbeat} {part : List Action} {φ : Phase}
    (h : Journal t l part φ) : ∃ answers, part <+: (Backoff.round t.interval l answers).1 := by
  obtain ⟨conn, n⟩ := l
  have hsleep (answers : Backoff.Answers) :
      [.sleep t.interval] <+: (Backoff.round t.interval ⟨conn, n⟩ answers).1 := by
    cases conn with
    | true => exact ⟨_, rfl⟩
    | false =>
      rw [Backoff.round]
      cases answers.connect <;> exact ⟨_, rfl⟩
  cases φ with
  | resting =>
    obtain ⟨-, rfl⟩ := h
    exact ⟨⟨true, true⟩, List.nil_prefix⟩
  | checking =>
    obtain ⟨-, rfl⟩ := h
    exact ⟨⟨true, true⟩, hsleep _⟩
  | leaving | exited =>
    obtain rfl := h
    exact ⟨⟨true, true⟩, hsleep _⟩
  | connecting =>
    obtain ⟨-, -, rfl⟩ := h
    exact ⟨⟨true, true⟩, hsleep _⟩
  | keepalive | session =>
    obtain ⟨rfl, rfl⟩ := h
    exact ⟨⟨true, true⟩, _, rfl⟩
  | querying =>
    obtain ⟨rfl, -, rfl⟩ | ⟨rfl, -, rfl⟩ := h <;> exact ⟨⟨true, true⟩, _, rfl⟩
  | closing =>
    obtain ⟨rfl, -, rfl⟩ | ⟨rfl, -, rfl⟩ := h <;> exact ⟨⟨true, false⟩, _, rfl⟩
  | backingOff =>
    obtain ⟨rfl, -, rfl⟩ := h
    exact ⟨⟨false, false⟩, _, rfl⟩
  | finished =>
    obtain ⟨answers, h⟩ := h
    exact ⟨answers, by rw [h]⟩

/-- The rounds, as a server of what is made of them. -/
theorem serve_round (interval : Duration) (answers : ℕ → Backoff.Answers) (n : ℕ) :
    serve (Backoff.round interval) ⟨false, 0⟩ ((List.range n).map answers) =
      ((List.range n).map (actions interval answers), Backoff.state interval answers n) := by
  induction n with
  | zero => rfl
  | succ n ih => rw [List.range_succ, List.map_append, List.map_singleton, serve_snoc, ih,
      List.map_append, List.map_singleton, actions, Backoff.state]

/-- The history is that of some complete rounds, which lead to `l`, and a part as given. -/
def Logged (t : HeartbeatTask) (tr : List (Event ι)) (l : Heartbeat)
    (J : List Action → Prop) : Prop :=
  ∃ answers part, (serve (Backoff.round t.interval) ⟨false, 0⟩ answers).2 = l ∧
    tr.flatMap visible =
      (serve (Backoff.round t.interval) ⟨false, 0⟩ answers).1.flatten ++ part ∧ J part

theorem Logged.snoc {tr : List (Event ι)} {l : Heartbeat} {J J' : List Action → Prop}
    (h : Logged t tr l J) {e : Event ι} (hJ : ∀ part, J part → J' (part ++ visible e)) :
    Logged t (tr ++ [e]) l J' := by
  obtain ⟨answers, part, hl, htr, hpart⟩ := h
  refine ⟨answers, part ++ visible e, hl, ?_, hJ part hpart⟩
  rw [List.flatMap_append, htr, List.flatMap_singleton, List.append_assoc]

/-- The history, by where the task is. -/
def Kept (t : HeartbeatTask) (tr : List (Event ι)) : Task Heartbeat Phase → Prop
  | .live l φ => Logged t tr l fun part ↦ Journal t l part φ
  | .dropped l =>
    Logged t tr l fun part ↦ ∃ answers, part <+: (Backoff.round t.interval l answers).1

theorem kept_turns [DecidableEq ι] (t : HeartbeatTask) (f : ι) :
    t.typestate.Turns (server f) World.Ambient fun tr _ task ↦ Kept t tr task := by
  refine ⟨?_, ?_, ?_, ?_⟩
  · rintro tr w l φ q u r _ h hmay -
    obtain ⟨φ', hφ', hmoves⟩ := moves_of_may hmay r
    exact ⟨φ', hφ', h.snoc fun part hpart ↦ journal_moves hpart hmoves⟩
  · rintro tr w l φ l' ⟨answers, part, hl, htr, hpart⟩ rfl
    obtain ⟨a, hround⟩ := hpart
    refine ⟨answers ++ [a], [], ?_, ?_, rfl, rfl⟩
    · rw [serve_snoc, hl, hround]
    · rw [List.flatMap_append, htr, serve_snoc, hl, hround, List.flatten_append,
        List.flatten_singleton, List.append_nil]
      exact List.append_nil _
  · rintro tr w l φ q u _ h hmay -
    exact h.snoc fun part hpart ↦ (List.append_nil part).symm ▸ prefix_of_journal hpart
  · rintro tr w task e _ h -
    cases task with
    | live l φ => exact h.snoc fun part hpart ↦ (List.append_nil part).symm ▸ hpart
    | dropped l => exact h.snoc fun part hpart ↦ (List.append_nil part).symm ▸ hpart

theorem map_range_getD (as : List Backoff.Answers) (a : Backoff.Answers) :
    (List.range as.length).map (fun i ↦ (as ++ [a]).getD i a) = as ∧
      (List.range (as.length + 1)).map (fun i ↦ (as ++ [a]).getD i a) = as ++ [a] := by
  constructor
  · refine List.ext_getElem (by simp) fun i h₁ h₂ ↦ ?_
    simp [List.getD, List.getElem?_append_left h₂, List.getElem?_eq_getElem h₂]
  · refine List.ext_getElem (by simp) fun i h₁ h₂ ↦ ?_
    simp [List.getD, List.getElem?_eq_getElem h₂]

/-- **The task does what the rounds say**, in their order, and stops within one if at all. -/
theorem heartbeat_refines_rounds [DecidableEq ι] (t : HeartbeatTask) {f : ι} {p₀ p : State ι}
    {tr : List (Event ι)} (hspawned : Spawned f t p₀) (hrun : Run (Step t f) p₀ tr p) :
    ∃ (answers : ℕ → Backoff.Answers) (n : ℕ),
      (List.range n).flatMap (actions t.interval answers) <+: tr.flatMap visible ∧
        tr.flatMap visible <+: (List.range (n + 1)).flatMap (actions t.interval answers) := by
  have hstart : Kept t ([] : List (Event ι)) (.live ⟨false, 0⟩ (.resting ⟨false, 0⟩)) :=
    ⟨[], [], rfl, rfl, rfl, rfl⟩
  obtain ⟨task, hkept, -⟩ :=
    (kept_turns t f).run_from t.body_follows hstart (follows_spawned hspawned) hrun
  have hlogged : ∃ l, Logged t tr l fun part ↦ ∃ a, part <+: (Backoff.round t.interval l a).1 := by
    cases task with
    | dropped l => exact ⟨l, hkept⟩
    | live l φ =>
      obtain ⟨as, part, hl, htr, hpart⟩ := hkept
      exact ⟨l, as, part, hl, htr, prefix_of_journal hpart⟩
  obtain ⟨_, as, part, rfl, htr, a, hpart⟩ := hlogged
  obtain ⟨hmap, hmap'⟩ := map_range_getD as a
  refine ⟨fun i ↦ (as ++ [a]).getD i a, as.length, ?_⟩
  have hrounds (n : ℕ) :
      (List.range n).flatMap (actions t.interval fun i ↦ (as ++ [a]).getD i a) =
        (serve (Backoff.round t.interval) ⟨false, 0⟩
          ((List.range n).map fun i ↦ (as ++ [a]).getD i a)).1.flatten := by
    rw [serve_round, List.flatMap_def]
  rw [hrounds, hrounds, hmap, hmap', serve_snoc, htr]
  refine ⟨List.prefix_append _ _, ?_⟩
  rw [List.flatten_append, List.flatten_singleton]
  exact (List.prefix_append_right_inj _).mpr hpart

/-- A round that fails, one that does not, and the first action of a third. -/
theorem heartbeat_refines_rounds_third : ∃ p, Run (Step withDefaults 0) atFirst
      (twoRounds ++ [.answered (.sleep withDefaults.interval) ()]) p ∧
    ∃ (answers : ℕ → Backoff.Answers) (n : ℕ),
      (List.range n).flatMap (actions withDefaults.interval answers) <+:
          [.sleep withDefaults.interval, .connect false, .sleep (.fromSecs 5),
           .sleep withDefaults.interval, .connect true, .select1 true,
           .sleep withDefaults.interval] ∧
        [.sleep withDefaults.interval, .connect false, .sleep (.fromSecs 5),
           .sleep withDefaults.interval, .connect true, .select1 true,
           .sleep withDefaults.interval] <+:
          (List.range (n + 1)).flatMap (actions withDefaults.interval answers) :=
  have hrun := run_twoRounds.snoc (.answer ⟨trivial, rfl⟩)
  ⟨_, hrun, heartbeat_refines_rounds withDefaults spawned_atFirst hrun⟩

end World

end HeartbeatTask

end SurrealPg
