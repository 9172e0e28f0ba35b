import SurrealPg.Store.Life
import SurrealPg.Transaction.Quiet

/-!
# Active transactions

The store's `tx_active` is raised when `begin` returns a transaction. It is lowered in two places:
by the guard inside a commit or cancel, which owns the connection from its first poll on, and by
the destructor of a transaction that still has its connection. Which of the two runs is decided by
whether the connection was taken, and the futures of both may be dropped anywhere.

Seen from one transaction, it owes the counter one until a commit or cancel has run to its end or
was dropped under way, or until it was dropped itself. Every step that lowers the counter is a step
that pays this debt, so it is paid once; the counter is the number of debts.
-/

namespace SurrealPg

open Semantics RosterEvent

/-! ## A transaction value and its futures -/

/-- A method of `PgTransaction`. -/
inductive Method
  | op (o : Op)
  | commit
  | cancel

namespace Method

/-- Whether the method is `commit` or `cancel`. -/
def isCloser : Method → Bool
  | op _ => false
  | commit | cancel => true

def run (tx : PgTransaction) : Method → Async (Result Answer × PgTransaction)
  | op o => o.run tx
  | commit => (fun r ↦ (r.1.map fun _ ↦ .unit, r.2)) <$> tx.commit
  | cancel => (fun r ↦ (r.1.map fun _ ↦ .unit, r.2)) <$> tx.cancel

end Method

/-- What its owner is doing with a transaction. The methods take `&mut self`, so there is one
future at a time. -/
inductive Use
  | idle (tx : PgTransaction)
  /-- The future of a method that has not been polled yet. -/
  | unpolled (tx : PgTransaction) (m : Method)
  /-- The future of a method that has been polled, as far as it got. -/
  | running (m : Method) (d : Async (Result Answer × PgTransaction))
  | dropped

/-- A transaction that was returned by `begin`. -/
structure Value where
  use : Use
  /-- A commit or cancel has returned, or was dropped or panicked after its first poll. -/
  closed : Bool

/-- What an owner is seen to do. -/
inductive Deed
  | called (m : Method)
  /-- The future was dropped before its first poll, which started nothing. -/
  | forgotten
  | polled
  | answered (q : Request)
  | returned
  /-- The future was dropped, or panicked, while it waited for `q`; whether a guard was alive. -/
  | abandoned (q : Request) (guard : Bool)
  /-- The transaction was dropped; whether it had its connection. -/
  | dropped (open' : Bool)

/-- The command a deed has to do with. -/
def Deed.command : Deed → Option (Postgres.Command Stmt)
  | answered (.sql c) | abandoned (.sql c) _ => some c
  | _ => none

/-- `tx_active.fetch_sub(1, ..)`, in `release_active` or in a destructor. -/
def Deed.isRelease : Deed → Bool
  | answered .releaseActive => true
  | abandoned _ guard => guard
  | dropped open' => open'
  | _ => false

namespace Value

/-- The owner of a transaction just begun. -/
def opened (_ : Bool) (tx : PgTransaction) : Value := ⟨.idle tx, false⟩

inductive Step : Value → Deed → Value → Prop
  | call {tx : PgTransaction} {closed : Bool} (m : Method) :
    Step ⟨.idle tx, closed⟩ (.called m) ⟨.unpolled tx m, closed⟩
  | forget {tx : PgTransaction} {m : Method} {closed : Bool} :
    Step ⟨.unpolled tx m, closed⟩ .forgotten ⟨.idle tx, closed⟩
  | poll {tx : PgTransaction} {m : Method} {closed : Bool} :
    Step ⟨.unpolled tx m, closed⟩ .polled ⟨.running m (m.run tx), closed⟩
  | answer {m : Method} {q : Request} {u : Option Unwound} {closed : Bool}
      {next : q.Answer → Async (Result Answer × PgTransaction)} (r : q.Answer) :
      Step ⟨.running m (.ask q u next), closed⟩ (.answered q) ⟨.running m (next r), closed⟩
  | «return» {m : Method} {r : Result Answer} {tx : PgTransaction} {closed : Bool} :
      Step ⟨.running m (.done (r, tx)), closed⟩ .returned ⟨.idle tx, closed || m.isCloser⟩
  | abandon {m : Method} {q : Request} {left : Unwound} {closed : Bool}
      {next : q.Answer → Async (Result Answer × PgTransaction)} :
      Step ⟨.running m (.ask q (some left) next), closed⟩ (.abandoned q left.guard)
        ⟨.idle left.self, closed || m.isCloser⟩
  | drop {tx : PgTransaction} {closed : Bool} :
      Step ⟨.idle tx, closed⟩ (.dropped (tx.dropReleases == 1)) ⟨.dropped, closed⟩

/-- The transaction has not been dropped, and has neither finished nor abandoned a commit or
cancel. -/
def live (v : Value) : Bool :=
  match v.use with
  | .idle _ | .unpolled .. => !v.closed
  | .running m d => !v.closed && !(m.isCloser && d.isDone)
  | .dropped => false

end Value

/-- A transaction that `begin` has returned, or is returning, and that is live. -/
def Life.live : Life Value → Bool
  | beginning _ (.done (.ok _)) => true
  | beginning .. | fruitless => false
  | owned v => v.live

/-- Every life of a store with the counter all of them share. -/
abbrev ActiveStore := Roster (Life Value) UInt64

namespace ActiveStore

/-- A release by the owner of a transaction. -/
def isRelease : LifeEvent Deed → Bool
  | .did e => e.isRelease
  | _ => false

/-- What an event does to `tx_active`. -/
def effect (e : LifeEvent Deed) (active : UInt64) : UInt64 :=
  if e.isRaise then active + 1 else if isRelease e then active - 1 else active

/-- A store whose transactions are begun, used and dropped in any order. -/
abbrev Step (s : PgStore) :
    ActiveStore → RosterEvent (LifeEvent Deed) → ActiveStore → Prop :=
  Roster.Step (Life.New s) (Life.Step Value.opened Value.Step) effect

end ActiveStore

/-! ## One transaction pays once -/

/-- A commit or cancel under way: while it owes, all it does is to send what closes the
transaction, under a guard and without the connection, and to let the guard go. -/
inductive Closes {β : Type} : Bool → Async (β × PgTransaction) → Prop
  | send {c : Postgres.Command Stmt} {left : Unwound}
      {next : Except SqlxError Reply → Async (β × PgTransaction)} :
      left.guard = true → left.self.conn = none → (∀ r, Closes true (next r)) →
      Closes true (.ask (.sql c) (some left) next)
  | release {next : Unit → Async (β × PgTransaction)} :
      Closes false (next ()) → Closes true (.ask .releaseActive none next)
  | closed {r : β} {tx : PgTransaction} : tx.conn = none → Closes false (.done (r, tx))

theorem Closes.owes_eq {β : Type} {owes : Bool} {d : Async (β × PgTransaction)}
    (h : Closes owes d) : owes = !d.isDone := by
  cases h <;> rfl

theorem Closes.map {β γ : Type} {owes : Bool} {d : Async (β × PgTransaction)}
    (h : Closes owes d) (f : β → γ) : Closes owes ((fun r ↦ (f r.1, r.2)) <$> d) := by
  rw [← bind_pure_comp]
  induction h with
  | send hguard hconn _ ih => exact .send hguard hconn ih
  | release _ ih => exact .release ih
  | closed hconn => exact .closed hconn

namespace PgTransaction

theorem close_closes {inner : PgTransaction → TxConn → Async (Result Unit)}
    {c : Postgres.Command Stmt} (hinner : EndsBy c inner) (tx : PgTransaction) :
    Closes tx.conn.isSome (tx.close inner) := by
  cases hconn : tx.conn with
  | none =>
    rw [close_of_none hconn]
    exact .closed hconn
  | some conn =>
    rw [hinner.close_eq hconn]
    exact .send rfl rfl fun r ↦ .release (.closed rfl)

end PgTransaction

/-- **A commit or cancel** owes exactly if the transaction has its connection. -/
theorem Method.run_closes {m : Method} (hm : m.isCloser = true) (tx : PgTransaction) :
    Closes tx.conn.isSome (m.run tx) := by
  cases m with
  | op o => exact nomatch hm
  | commit => exact (PgTransaction.close_closes PgTransaction.endsBy_commitInner tx).map _
  | cancel => exact (PgTransaction.close_closes PgTransaction.endsBy_cancelInner tx).map _

namespace Value

/-- A transaction has its connection as long as it is live, and a method under way knows it. -/
def Sound (v : Value) : Prop :=
  match v.use with
  | .idle tx | .unpolled tx _ => tx.conn.isSome = !v.closed
  | .running m d =>
    if m.isCloser then Closes (!d.isDone) d ∧ (v.closed = true → d.isDone = true)
    else ∃ conn, conn.isSome = !v.closed ∧ d.All (Quiet conn) fun r ↦ r.2.conn = conn
  | .dropped => True

section

variable {m : Method} {d : Async (Result Answer × PgTransaction)} {closed : Bool}

theorem sound_op (hm : m.isCloser = false) : Sound ⟨.running m d, closed⟩ ↔
    ∃ conn, conn.isSome = !closed ∧ d.All (Quiet conn) fun r ↦ r.2.conn = conn := by
  simp [Sound, hm]

theorem sound_closer (hm : m.isCloser = true) : Sound ⟨.running m d, closed⟩ ↔
    Closes (!d.isDone) d ∧ (closed = true → d.isDone = true) := by
  simp [Sound, hm]

theorem live_op (hm : m.isCloser = false) : live ⟨.running m d, closed⟩ = !closed := by
  simp [live, hm]

theorem live_closer (hm : m.isCloser = true) :
    live ⟨.running m d, closed⟩ = (!closed && !d.isDone) := by
  simp [live, hm]

end

theorem Sound.poll {tx : PgTransaction} {m : Method} {closed : Bool}
    (h : Sound ⟨.unpolled tx m, closed⟩) :
    Sound ⟨.running m (m.run tx), closed⟩ ∧ live ⟨.running m (m.run tx), closed⟩ = !closed := by
  have hconn : tx.conn.isSome = !closed := h
  cases hm : m.isCloser with
  | false =>
    obtain ⟨o, rfl⟩ : ∃ o, m = .op o := by
      cases m <;> first | exact ⟨_, rfl⟩ | exact nomatch hm
    exact ⟨(sound_op hm).mpr ⟨tx.conn, hconn, Op.run_quiet tx o⟩, live_op hm⟩
  | true =>
    have hcloses := Method.run_closes hm tx
    have hdone : (!closed) = !(m.run tx).isDone := hconn ▸ hcloses.owes_eq
    rw [live_closer hm, sound_closer hm, ← hdone, Bool.and_self, ← hconn]
    refine ⟨⟨hcloses, fun hc ↦ ?_⟩, rfl⟩
    rw [hc] at hdone
    exact (Bool.not_inj hdone).symm

/-- **A release pays the debt**, and no other step does. -/
theorem Sound.step {v v' : Value} {e : Deed} (h : v.Sound) (hstep : Step v e v') :
    v'.Sound ∧ e.isRelease.toNat + v'.live.toNat = v.live.toNat := by
  cases hstep with
  | call m => exact ⟨h, Nat.zero_add _⟩
  | forget => exact ⟨h, Nat.zero_add _⟩
  | poll =>
    obtain ⟨hsound, hlive⟩ := h.poll
    rw [hlive]
    exact ⟨hsound, Nat.zero_add _⟩
  | @answer m q u closed next r =>
    cases hm : m.isCloser with
    | false =>
      obtain ⟨conn, hconn, hq, hall⟩ := (sound_op hm).mp h
      rw [live_op hm, live_op hm]
      refine ⟨(sound_op hm).mpr ⟨conn, hconn, hall r⟩, ?_⟩
      obtain ⟨c, left, -, -, -⟩ := hq
      exact Nat.zero_add _
    | true =>
      obtain ⟨hcloses, hdone⟩ := (sound_closer hm).mp h
      -- The method is under way, so nothing has closed the transaction before.
      obtain rfl : closed = false := by
        cases closed with
        | false => rfl
        | true => exact nomatch hdone rfl
      rw [live_closer hm, live_closer hm, sound_closer hm]
      cases hcloses with
      | send _ _ hnext =>
        have hr := (hnext r).owes_eq
        rw [← hr]
        exact ⟨⟨hnext r, nofun⟩, rfl⟩
      | release hnext =>
        have hr := hnext.owes_eq
        rw [← hr]
        exact ⟨⟨hnext, nofun⟩, rfl⟩
  | @«return» m r tx closed =>
    cases hm : m.isCloser with
    | false =>
      obtain ⟨conn, hconn, htx⟩ := (sound_op hm).mp h
      obtain rfl : tx.conn = conn := htx
      rw [live_op hm, Bool.or_false]
      exact ⟨hconn, Nat.zero_add _⟩
    | true =>
      obtain ⟨hcloses, -⟩ := (sound_closer hm).mp h
      cases hcloses with
      | closed hconn =>
        rw [live_closer hm, Bool.or_true]
        refine ⟨?_, ?_⟩
        · change tx.conn.isSome = false
          rw [hconn]
          rfl
        · rw [Dialogue.isDone, Bool.not_true, Bool.and_false]
          rfl
  | @abandon m q left closed next =>
    cases hm : m.isCloser with
    | false =>
      obtain ⟨conn, hconn, hq, -⟩ := (sound_op hm).mp h
      obtain ⟨c, _, _, hleft, hguard⟩ := hq
      rw [live_op hm, Bool.or_false, hguard]
      refine ⟨?_, Nat.zero_add _⟩
      change left.self.conn.isSome = !closed
      rw [hleft, hconn]
    | true =>
      obtain ⟨hcloses, hdone⟩ := (sound_closer hm).mp h
      obtain rfl : closed = false := by
        cases closed with
        | false => rfl
        | true => exact nomatch hdone rfl
      cases hcloses with
      | send hguard hconn _ =>
        rw [live_closer hm, hguard]
        refine ⟨?_, rfl⟩
        change left.self.conn.isSome = false
        rw [hconn]
        rfl
  | @drop tx closed =>
    have hconn : tx.conn.isSome = !closed := h
    refine ⟨trivial, ?_⟩
    change ((if tx.conn.isSome then 1 else 0) == 1).toNat + 0 = (!closed).toNat
    rw [hconn]
    cases closed <;> rfl

theorem sound_of_run {write : Bool} {conn : TxConn} {h : List Deed} {v : Value}
    (hrun : Run Step (opened write ⟨some conn, write, 0, []⟩) h v) :
    v.Sound ∧ h.countP Deed.isRelease + v.live.toNat = 1 := by
  refine hrun.invariant
    (I := fun h v ↦ v.Sound ∧ h.countP Deed.isRelease + v.live.toNat = 1) ⟨rfl, rfl⟩ ?_
  rintro h v e v' ⟨hsound, hcount⟩ hstep
  obtain ⟨hsound', hpaid⟩ := hsound.step hstep
  refine ⟨hsound', ?_⟩
  rw [countP_snoc]
  omega

end Value

/-! ## The counter counts the live transactions -/

namespace ActiveStore

theorem isRaise_eq_false {e : LifeEvent Deed} (he : isRelease e = true) : e.isRaise = false := by
  cases e <;> first | rfl | exact nomatch he

theorem countP_isRelease (h : List (LifeEvent Deed)) :
    h.countP isRelease = (h.filterMap LifeEvent.deed).countP Deed.isRelease := by
  rw [List.countP_filterMap]
  refine List.countP_congr fun e _ ↦ ?_
  cases e <;> simp [isRelease, LifeEvent.deed]

theorem live_of_begins {s : PgStore} {write : Bool} {φ : BeginPhase}
    {d : StoreAsync (Result PgTransaction)} (h : PgStore.Begins s.mode write φ d) :
    (Life.beginning write d : Life Value).live = φ.isCounted := by
  cases d with
  | done r =>
    rcases r with e | tx
    · cases φ <;> first | rfl | exact h.elim | exact nomatch h.choose_spec
    · cases φ <;> first | rfl | exact h.elim | exact nomatch h.choose_spec
  | ask q u next =>
    obtain ⟨hmay, -⟩ := h
    cases hmay with
    | look hφ => obtain rfl | rfl := hφ <;> rfl
    | _ => rfl

/-- **One life** lowers the counter as often as it has raised it, less one while it is live. -/
theorem released_add_live {s : PgStore} {x₀ x : Life Value} {h : List (LifeEvent Deed)}
    (hnew : Life.New s x₀) (hrun : Run (Life.Step Value.opened Value.Step) x₀ h x) :
    h.countP isRelease + x.live.toNat = h.countP LifeEvent.isRaise ∧
      h.countP LifeEvent.isRaise ≤ 1 := by
  have htold := Life.told_of_run hnew hrun
  rw [countP_isRelease]
  cases x with
  | beginning write d =>
    obtain ⟨φ, hbegins, -, hraise, hdeed⟩ := htold
    rw [hraise, hdeed, live_of_begins hbegins]
    exact ⟨Nat.zero_add _, Bool.toNat_le _⟩
  | fruitless =>
    obtain ⟨-, hraise, hdeed⟩ := htold
    rw [hraise, hdeed]
    exact ⟨rfl, Nat.zero_le 1⟩
  | owned v =>
    obtain ⟨-, hraise, conn, write, hrun'⟩ := htold
    rw [hraise]
    exact ⟨(Value.sound_of_run hrun').2, Nat.le_refl 1⟩

variable {s : PgStore} {tr : List (RosterEvent (LifeEvent Deed))} {r : ActiveStore}

/-- The counter is what was added less what was subtracted, modulo `2 ^ 64`. -/
theorem shared_add (h : Run (Step s) (Roster.start 0) tr r) :
    r.shared + UInt64.ofNat (tr.countP (shows isRelease)) =
      UInt64.ofNat (tr.countP (shows LifeEvent.isRaise)) := by
  refine h.invariant (I := fun tr r ↦ r.shared + UInt64.ofNat (tr.countP (shows isRelease)) =
    UInt64.ofNat (tr.countP (shows LifeEvent.isRaise))) rfl ?_
  rintro tr r e r' ih hstep
  cases hstep with
  | join x hx =>
    rw [countP_append_joined, countP_append_joined]
    exact ih
  | act k e x' hk hact =>
    rw [countP_append_acted, countP_append_acted]
    change effect e r.shared + _ = _
    rw [effect]
    cases hraise : e.isRaise with
    | true =>
      -- no event both counts a transaction and counts one off
      have hrelease : isRelease e = false := by
        rw [← Bool.not_eq_true]
        exact fun he ↦ nomatch (isRaise_eq_false he).symm.trans hraise
      rw [hrelease, if_pos rfl, Bool.toNat_false, Bool.toNat_true, Nat.add_zero,
        UInt64.ofNat_add, ← ih]
      grind
    | false =>
      cases hrelease : isRelease e with
      | true =>
        rw [if_neg Bool.false_ne_true, if_pos rfl, Bool.toNat_true, Bool.toNat_false,
          UInt64.ofNat_add, Nat.add_zero, ← ih]
        grind
      | false => exact ih

end ActiveStore

/-- **The account of a store's active transactions.** -/
structure ActiveAccount (s : PgStore) (tr : List (RosterEvent (LifeEvent Deed)))
    (r : ActiveStore) : Prop where
  /-- The counter is the number of live transactions. -/
  active : r.shared = UInt64.ofNat (r.party.countP Life.live)
  /-- A transaction that was returned is live, or has lowered the counter once. -/
  once : ∀ {k x}, r.party[k]? = some x →
    (history k tr).countP ActiveStore.isRelease + x.live.toNat =
        (history k tr).countP LifeEvent.isRaise ∧
      (history k tr).countP LifeEvent.isRaise ≤ 1
  /-- The counter is lowered only while there is a live transaction. -/
  no_wrap : ∀ {e r'}, ActiveStore.Step s r e r' → shows ActiveStore.isRelease e = true →
    0 < r.party.countP Life.live

/-- **`tx_active` is the number of live transactions**, whatever is begun, used, abandoned and
dropped, and each transaction lowers it once. -/
theorem activeAccount_of_run {s : PgStore} {tr : List (RosterEvent (LifeEvent Deed))}
    {r : ActiveStore} (h : Run (ActiveStore.Step s) (Roster.start 0) tr r) :
    ActiveAccount s tr r := by
  have honce : ∀ {tr r}, Run (ActiveStore.Step s) (Roster.start 0) tr r →
      ∀ k x, r.party[k]? = some x →
        (history k tr).countP ActiveStore.isRelease + x.live.toNat =
            (history k tr).countP LifeEvent.isRaise ∧
          (history k tr).countP LifeEvent.isRaise ≤ 1 := by
    intro tr r h k x hk
    obtain ⟨x₀, hnew, hrun⟩ := (Roster.party_run h).1 k x hk
    exact ActiveStore.released_add_live hnew hrun
  have htotal := Roster.countP_add_sum h fun k x hk ↦ (honce h k x hk).1
  refine ⟨?_, fun {k x} hk ↦ honce h k x hk, fun {e r'} hstep he ↦ ?_⟩
  · have hshared := ActiveStore.shared_add h
    rw [← htotal, Nat.add_comm, UInt64.ofNat_add, UInt64.add_left_inj] at hshared
    rw [hshared, Roster.sum_map_toNat]
  · -- The debt of the party that lowers the counter is paid by this step, so it was owed.
    cases hstep with
    | join x hx => exact nomatch he
    | @act k x e x' hk hact =>
      have hbefore := (honce h k x hk).1
      have hafter := (honce (h.snoc (.act k e x' hk hact)) k x'
        (List.getElem?_set_self (List.getElem?_eq_some_iff.mp hk).1)).1
      have hrelease : ActiveStore.isRelease e = true := he
      rw [history_append_self, countP_snoc, countP_snoc, hrelease,
        ActiveStore.isRaise_eq_false hrelease] at hafter
      have hlive : x.live = true := by
        cases hx : x.live with
        | true => rfl
        | false =>
          rw [hx, Bool.toNat_false] at hbefore
          rw [Bool.toNat_true, Bool.toNat_false] at hafter
          omega
      exact List.countP_pos_iff.mpr ⟨x, List.mem_of_getElem? hk, hlive⟩

/-- A commit that is forgotten before its first poll, then a cancel dropped while `ROLLBACK` is on
its way, then the transaction itself is dropped. -/
theorem activeAccount_of_abandoned_cancel :
    ∃ tr, ActiveAccount (.withDefaults .pooled) tr ⟨0, [.owned ⟨.dropped, true⟩]⟩ := by
  have h : Run (ActiveStore.Step (.withDefaults .pooled)) (Roster.start 0) [] ⟨0, []⟩ := .nil
  have h := h.snoc (.join (.beginning true _) ⟨true, rfl⟩)
  have h := h.snoc (.act 0 _ _ rfl (.ask (q := .loadShuttingDown) false))
  have h := h.snoc (.act 0 _ _ rfl (.ask (q := .loadShuttingDown) false))
  have h := h.snoc (.act 0 _ _ rfl (.ask (q := .acquire) (.ok ())))
  have h := h.snoc (.act 0 _ _ rfl (.ask (q := .execute _) (.ok ())))
  have h := h.snoc (.act 0 _ _ rfl (.ask (q := .addStarted) ()))
  have h := h.snoc (.act 0 _ _ rfl (.ask (q := .addActive) ()))
  have h := h.snoc (.act 0 _ _ rfl .return)
  have h := h.snoc (.act 0 _ _ rfl (.act (.call .commit)))
  have h := h.snoc (.act 0 _ _ rfl (.act .forget))
  have h := h.snoc (.act 0 _ _ rfl (.act (.call .cancel)))
  have h := h.snoc (.act 0 _ _ rfl (.act .poll))
  have h := h.snoc (.act 0 _ _ rfl (.act .abandon))
  have h := h.snoc (.act 0 _ _ rfl (.act .drop))
  exact ⟨_, activeAccount_of_run h⟩

end SurrealPg
