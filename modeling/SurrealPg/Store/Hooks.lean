import SurrealPg.Store.Pooler
import SurrealPg.Store.Service

/-!
# The hooks of the pool

In pooled mode the connections are the pool's, and `new` gives it two hooks. `after_connect` runs
on every new connection: the keepalive settings are best effort, the session settings are not, and
a connection without them is rejected. `before_acquire` runs on a connection that has been idle and
is about to be used again, and pings it if it was idle for long.

A pooled connection has a backend of its own. So what `begin_direct` cannot promise behind a pooler
holds here: a connection that is anybody's to use has the session settings, and every statement of
every transaction runs under them.
-/

namespace SurrealPg

open Postgres Semantics

/-! ## The hooks -/

/-- What a hook asks of the connection it is given. -/
inductive HookReq
  /-- `timeout(acquire_timeout, execute(..))` -/
  | executeTimed (sql : RawSql)
  | ping
  deriving DecidableEq

abbrev HookReq.Answer : HookReq → Type
  | .executeTimed _ => Option (Except SqlxError Unit)
  | .ping => Except SqlxError Unit

/-- A hook. The connection is closed when its future is dropped. -/
abbrev Hook (α : Type) := Dialogue HookReq HookReq.Answer Unit α

namespace PgStore

variable (s : PgStore)

/-- What `after_connect` insists on. -/
def applySession : Hook (Except SqlxError Unit) :=
  .ask (.executeTimed s.sessionSql) (some ()) fun
    | some (.ok _) => .done (.ok ())
    | some (.error e) => .done (.error e)
    | none => .done (.error (.protocol "session SQL timed out in after_connect"))

/-- The hook that makes a connection ready, or rejects it. -/
def afterConnect : Hook (Except SqlxError Unit) :=
  .ask (.executeTimed s.keepaliveSql) (some ()) fun _ ↦ s.applySession

/-- The hook that decides whether a connection that was idle so long is used again. -/
def beforeAcquire (idleFor : Duration) : Hook (Except SqlxError Bool) :=
  if s.tune.keepaliveIdle.nanos < idleFor.nanos then
    .ask .ping (some ()) fun
      | .error e => .done (.error e)
      | .ok _ => .done (.ok true)
  else .done (.ok true)

end PgStore

/-! ## The pool -/

/-- What is going on on a connection of the pool. -/
inductive Usage
  /-- `after_connect` is under way. -/
  | opening (d : Hook (Except SqlxError Unit))
  | idle (idleFor : Duration)
  /-- `before_acquire` is under way, after so long; whether a ping was answered. -/
  | checking (idleFor : Duration) (pinged : Bool) (d : Hook (Except SqlxError Bool))
  /-- The pool has handed it out. -/
  | handed
  | tx (v : Value)

/-- A connection of the pool: the link to its one backend, with all that was sent over it. -/
structure Lane where
  link : Link Unit
  usage : Usage

/-- What is seen of a connection. -/
inductive LaneEvent
  | connected
  | asked (q : HookReq)
  /-- A new connection is handed out. -/
  | opened
  | passed (n : ℕ)
  | checked
  /-- One that was idle so long is handed out; whether a ping was answered before. -/
  | reused (idleFor : Duration) (pinged : Bool)
  /-- Something is run outside transactions. -/
  | served (sql : ServiceSql)
  | begun (r : Except SqlxError Unit)
  | used (e : Deed)
  | released
  | closed

/-- The transaction has no connection any more. -/
def Value.IsFree (v : Value) : Prop :=
  match v.use with
  | .idle tx | .unpolled tx _ => tx.conn = none
  | .running .. => False
  | .dropped => True

namespace Lane

/-- What happens to a place of the pool, `none` where there is no connection. A message that was not
answered with success may have taken effect all the same. -/
inductive Step (s : PgStore) : Option Lane → LaneEvent → Option Lane → Prop
  | connect (settings : String → Guc) :
    Step s none .connected (some ⟨.new fun _ ↦ settings, .opening s.afterConnect⟩)
  | answer {l : Link Unit} {sql : RawSql} {u : Option Unit}
    {next : Option (Except SqlxError Unit) → Hook (Except SqlxError Unit)}
    (r : Option (Except SqlxError Unit)) (effective : Bool) :
    (r.elim false Except.isOk = true → effective = true) →
    Step s (some ⟨l, .opening (.ask (.executeTimed sql) u next)⟩) (.asked (.executeTimed sql))
      (some ⟨l.send (.setup sql) () effective, .opening (next r)⟩)
  | «open» {l : Link Unit} :
    Step s (some ⟨l, .opening (.done (.ok ()))⟩) .opened (some ⟨l, .handed⟩)
  | pass {l : Link Unit} {idleFor : Duration} (n : ℕ) :
    Step s (some ⟨l, .idle idleFor⟩) (.passed n) (some ⟨l, .idle ⟨idleFor.nanos + n⟩⟩)
  | check {l : Link Unit} {idleFor : Duration} :
    Step s (some ⟨l, .idle idleFor⟩) .checked
      (some ⟨l, .checking idleFor false (s.beforeAcquire idleFor)⟩)
  | pong {l : Link Unit} {idleFor : Duration} {pinged : Bool} {u : Option Unit}
    {next : Except SqlxError Unit → Hook (Except SqlxError Bool)} (r : Except SqlxError Unit) :
    Step s (some ⟨l, .checking idleFor pinged (.ask .ping u next)⟩) (.asked .ping)
      (some ⟨l, .checking idleFor (pinged || r.isOk) (next r)⟩)
  | reuse {l : Link Unit} {idleFor : Duration} {pinged : Bool} :
    Step s (some ⟨l, .checking idleFor pinged (.done (.ok true))⟩) (.reused idleFor pinged)
      (some ⟨l, .handed⟩)
  | serve {l : Link Unit} (sql : ServiceSql) :
    Step s (some ⟨l, .handed⟩) (.served sql) (some ⟨l, .handed⟩)
  | begin {l : Link Unit} (write : Bool) :
    Step s (some ⟨l, .handed⟩) (.begun (.ok ()))
      (some ⟨l.send (.setup s.beginSql) () true, .tx (.opened write (.newPooled write))⟩)
  | beginFails {l : Link Unit} (e : SqlxError) (effective : Bool) :
    Step s (some ⟨l, .handed⟩) (.begun (.error e))
      (some ⟨l.send (.setup s.beginSql) () effective, .handed⟩)
  | use {l l' : Link Unit} {v v' : Value} {e : Deed} : UseStep (v, l) e (v', l') →
    Step s (some ⟨l, .tx v⟩) (.used e) (some ⟨l', .tx v'⟩)
  /-- A transaction that was only dropped is rolled back first. -/
  | settle {l : Link Unit} {v : Value} (effective : Bool) : v.IsFree →
    Step s (some ⟨l, .tx v⟩) .released
      (some ⟨l.send (.setup .rollback) () effective, .idle ⟨0⟩⟩)
  | release {l : Link Unit} : Step s (some ⟨l, .handed⟩) .released (some ⟨l, .idle ⟨0⟩⟩)
  /-- A hook has rejected the connection or its future was dropped, the connection is too old or
  idle for too long, or it is broken. -/
  | close {x : Lane} : Step s (some x) .closed none

end Lane

/-- The pool, by the places for its connections. -/
def SqlxPool.Step {B : Type} [DecidableEq B] (s : PgStore) (p : B → Option Lane)
    (e : B × LaneEvent) (p' : B → Option Lane) : Prop :=
  ∃ x, Lane.Step s (p e.1) e.2 x ∧ p' = Function.update p e.1 x

/-! ## The settings of the session -/

/-- Everything the session SQL sets is set. -/
def PgTuneConfig.Applies (t : PgTuneConfig) (settings : String → Guc) : Prop :=
  ∀ a ∈ t.sessionSettings, settings a.1 = a.2.stored

/-- What a transaction sends: its `BEGIN`, and its statements. -/
def Message.isTransactional : Message → Bool
  | .setup (.begin _) | .command _ => true
  | _ => false

/-- What has been sent for transactions was sent under the settings. -/
def Link.SentUnder (t : PgTuneConfig) (l : Link Unit) : Prop :=
  ∀ x ∈ l.sent, x.message.isTransactional = true → t.Applies x.settings

section Settings

variable {s : PgStore} {t : PgTuneConfig} {settings : String → Guc} {l l' : Link Unit}
  {effective : Bool}

theorem applies_session : t.Applies (assign settings t.sessionSettings) := by
  intro a ha
  simp only [PgTuneConfig.sessionSettings, List.mem_cons, List.not_mem_nil, or_false] at ha
  obtain rfl | rfl | rfl | rfl | rfl | rfl | rfl | rfl := ha <;> rfl

theorem settings_send_begin : (l.send (.setup s.beginSql) () effective).settings = l.settings := by
  cases effective <;> rfl

theorem settings_send_rollback :
    (l.send (.setup .rollback) () effective).settings = l.settings := by
  cases effective <;> rfl

theorem applies_send_session :
    s.tune.Applies ((l.send (.setup s.sessionSql) () true).settings ()) := by
  rw [Link.send_settings, if_pos rfl, s.sessionSql_eq]
  exact applies_session

/-- What is sent meets the settings of the only backend. -/
theorem Link.SentUnder.send {m : Message} (h : l.SentUnder t)
    (hm : m.isTransactional = true → t.Applies (l.settings ())) :
    (l.send m () effective).SentUnder t := by
  intro x hx htx
  rw [Link.send_sent, List.mem_append, List.mem_singleton] at hx
  obtain hx | rfl := hx
  · exact h x hx htx
  · exact hm htx

theorem settings_of_use {v v' : Value} {e : Deed} (h : UseStep (v, l) e (v', l')) :
    l'.settings = l.settings := by
  cases h with
  | still => rfl
  | send pick effective => exact Link.send_command_settings

theorem Link.SentUnder.use {v v' : Value} {e : Deed} (h : l.SentUnder t)
    (hl : t.Applies (l.settings ())) (hstep : UseStep (v, l) e (v', l')) : l'.SentUnder t := by
  cases hstep with
  | still => exact h
  | send pick effective => exact h.send fun _ ↦ hl

end Settings

/-! ## What is known of a connection -/

namespace Lane

/-- How far a hook has come, and what it has seen to. -/
def Known (s : PgStore) (x : Lane) : Prop :=
  match x.usage with
  | .opening d => d = s.afterConnect ∨ d = s.applySession ∨
      ∃ r, d = .done r ∧ (r = .ok () → s.tune.Applies (x.link.settings ()))
  | .checking idleFor pinged d => s.tune.Applies (x.link.settings ()) ∧
      (d = s.beforeAcquire idleFor ∨ ∃ r, d = .done r ∧
        (r = .ok true → s.tune.keepaliveIdle.nanos < idleFor.nanos → pinged = true))
  | .idle _ | .handed | .tx _ => s.tune.Applies (x.link.settings ())

/-- What an event tells: a connection that was idle for long has answered a ping. -/
def Probed (s : PgStore) : LaneEvent → Prop
  | .reused idleFor pinged => s.tune.keepaliveIdle.nanos < idleFor.nanos → pinged = true
  | _ => True

variable {s : PgStore} {x : Lane} {o o' : Option Lane} {e : LaneEvent}

/-- **On a connection that is anybody's to use** the settings apply. -/
theorem Known.applies (h : x.Known s) (hx : ∀ d, x.usage ≠ .opening d) :
    s.tune.Applies (x.link.settings ()) := by
  rw [Known] at h
  cases hu : x.usage with
  | opening d => exact absurd hu (hx d)
  | checking idleFor pinged d =>
    rw [hu] at h
    exact h.1
  | idle | handed | tx =>
    rw [hu] at h
    exact h

/-- `after_connect` hands over a connection only after its session SQL. -/
theorem known_answer {l : Link Unit} {sql : RawSql} {u : Option Unit}
    {next : Option (Except SqlxError Unit) → Hook (Except SqlxError Unit)}
    {r : Option (Except SqlxError Unit)} {effective : Bool}
    (heffective : r.elim false Except.isOk = true → effective = true)
    (h : Known s ⟨l, .opening (.ask (.executeTimed sql) u next)⟩) :
    Known s ⟨l.send (.setup sql) () effective, .opening (next r)⟩ ∧
      (Message.setup sql).isTransactional = false := by
  obtain h | h | ⟨_, h, -⟩ := h
  · rw [PgStore.afterConnect] at h
    cases h
    exact ⟨Or.inr (Or.inl rfl), rfl⟩
  · rw [PgStore.applySession] at h
    cases h
    refine ⟨?_, by rw [s.sessionSql_eq]; rfl⟩
    rcases r with _ | e | ⟨⟩
    · exact Or.inr (Or.inr ⟨_, rfl, nofun⟩)
    · exact Or.inr (Or.inr ⟨_, rfl, nofun⟩)
    · rw [heffective rfl]
      exact Or.inr (Or.inr ⟨_, rfl, fun _ ↦ applies_send_session⟩)
  · cases h

/-- `before_acquire` lets a connection that was idle for long pass only after a ping. -/
theorem known_pong {l : Link Unit} {idleFor : Duration} {pinged : Bool} {u : Option Unit}
    {next : Except SqlxError Unit → Hook (Except SqlxError Bool)} (r : Except SqlxError Unit)
    (h : Known s ⟨l, .checking idleFor pinged (.ask .ping u next)⟩) :
    Known s ⟨l, .checking idleFor (pinged || r.isOk) (next r)⟩ := by
  obtain ⟨happlies, h | ⟨_, h, -⟩⟩ := h
  · rw [PgStore.beforeAcquire] at h
    split_ifs at h
    cases h
    refine ⟨happlies, Or.inr ?_⟩
    cases r with
    | error e => exact ⟨_, rfl, nofun⟩
    | ok _ => exact ⟨_, rfl, fun _ _ ↦ Bool.or_true _⟩
  · cases h

theorem probed_of_known {l : Link Unit} {idleFor : Duration} {pinged : Bool}
    (h : Known s ⟨l, .checking idleFor pinged (.done (.ok true))⟩) :
    s.tune.keepaliveIdle.nanos < idleFor.nanos → pinged = true := by
  obtain ⟨-, h | ⟨_, h, hpinged⟩⟩ := h
  · intro hlong
    rw [PgStore.beforeAcquire, if_pos hlong] at h
    cases h
  · cases h
    exact hpinged rfl

/-- **One step** keeps what is known of a connection, and what was sent over it. -/
theorem Step.known (h : ∀ x ∈ o, x.Known s ∧ x.link.SentUnder s.tune) (hstep : Step s o e o') :
    (∀ x ∈ o', x.Known s ∧ x.link.SentUnder s.tune) ∧ Probed s e := by
  have hsome {y : Lane} (hknown : y.Known s) (hsent : y.link.SentUnder s.tune) :
      ∀ x ∈ some y, x.Known s ∧ x.link.SentUnder s.tune := by
    intro x hx
    obtain rfl := Option.some.inj hx
    exact ⟨hknown, hsent⟩
  cases hstep with
  | connect settings => exact ⟨hsome (Or.inl rfl) nofun, trivial⟩
  | answer r effective heffective =>
    obtain ⟨hknown, hsent⟩ := h _ rfl
    obtain ⟨hknown', hsetup⟩ := known_answer heffective hknown
    exact ⟨hsome hknown' (hsent.send fun htx ↦ absurd (htx.symm.trans hsetup) nofun), trivial⟩
  | «open» =>
    obtain ⟨h | h | ⟨_, h, happlies⟩, hsent⟩ := h _ rfl
    · cases h
    · cases h
    · cases h
      exact ⟨hsome (happlies rfl) hsent, trivial⟩
  | pass n =>
    obtain ⟨hknown, hsent⟩ := h _ rfl
    exact ⟨hsome hknown hsent, trivial⟩
  | check =>
    obtain ⟨hknown, hsent⟩ := h _ rfl
    exact ⟨hsome ⟨hknown, Or.inl rfl⟩ hsent, trivial⟩
  | pong r =>
    obtain ⟨hknown, hsent⟩ := h _ rfl
    exact ⟨hsome (known_pong r hknown) hsent, trivial⟩
  | reuse =>
    obtain ⟨hknown, hsent⟩ := h _ rfl
    exact ⟨hsome hknown.1 hsent, probed_of_known hknown⟩
  | serve sql =>
    obtain ⟨hknown, hsent⟩ := h _ rfl
    exact ⟨hsome hknown hsent, trivial⟩
  | begin write =>
    obtain ⟨hknown, hsent⟩ := h _ rfl
    refine ⟨hsome ?_ (hsent.send fun _ ↦ hknown), trivial⟩
    rwa [Known, settings_send_begin]
  | beginFails e effective =>
    obtain ⟨hknown, hsent⟩ := h _ rfl
    refine ⟨hsome ?_ (hsent.send fun _ ↦ hknown), trivial⟩
    rwa [Known, settings_send_begin]
  | use huse =>
    obtain ⟨hknown, hsent⟩ := h _ rfl
    refine ⟨hsome ?_ (hsent.use hknown huse), trivial⟩
    rwa [Known, settings_of_use huse]
  | settle effective hv =>
    obtain ⟨hknown, hsent⟩ := h _ rfl
    refine ⟨hsome ?_ (hsent.send nofun), trivial⟩
    rwa [Known, settings_send_rollback]
  | release =>
    obtain ⟨hknown, hsent⟩ := h _ rfl
    exact ⟨hsome hknown hsent, trivial⟩
  | close => exact ⟨nofun, trivial⟩

end Lane

/-! ## Runs of the pool -/

section Runs

variable {B : Type} [DecidableEq B] {s : PgStore} {tr : List (B × LaneEvent)} {p : B → Option Lane}

/-- **The settings of the session apply in pooled mode.** Whatever the server answers, whatever has
taken effect without an answer, and wherever a future is dropped: they apply on every connection
but one that `after_connect` is still at work on, and did apply to every `BEGIN` and every
statement of a transaction sent over it. A connection that was idle for longer than the keepalive
time is handed out again only if it has answered a ping. -/
theorem pool_applies_session (h : Run (SqlxPool.Step s) (fun _ : B ↦ none) tr p) :
    (∀ b, ∀ x ∈ p b, ((∀ d, x.usage ≠ .opening d) → s.tune.Applies (x.link.settings ())) ∧
      x.link.SentUnder s.tune) ∧ ∀ e ∈ tr, Lane.Probed s e.2 := by
  have hinv : (∀ b, ∀ x ∈ p b, x.Known s ∧ x.link.SentUnder s.tune) ∧
      ∀ e ∈ tr, Lane.Probed s e.2 := by
    refine h.invariant (I := fun tr p ↦ (∀ b, ∀ x ∈ p b, x.Known s ∧ x.link.SentUnder s.tune) ∧
      ∀ e ∈ tr, Lane.Probed s e.2) ⟨nofun, nofun⟩ ?_
    rintro tr p ⟨b, e⟩ p' ⟨hlane, htr⟩ ⟨o, hstep, rfl⟩
    obtain ⟨hlane', he⟩ := hstep.known (hlane b)
    refine ⟨fun b' ↦ ?_, fun e' he' ↦ ?_⟩
    · by_cases hb : b' = b
      · subst hb
        rwa [Function.update_self]
      · rw [Function.update_of_ne hb]
        exact hlane b'
    · rcases List.mem_append.mp he' with he' | he'
      · exact htr e' he'
      · rw [List.mem_singleton.mp he']
        exact he
  exact ⟨fun b x hx ↦ ⟨(hinv.1 b x hx).1.applies, (hinv.1 b x hx).2⟩, hinv.2⟩

end Runs

/-- A server that knows no keepalive settings: a transaction is begun all the same, dropped, and
the connection used again after two minutes. -/
theorem pool_applies_session_reused :
    ∃ (tr : List (Unit × LaneEvent)) (p : Unit → Option Lane),
      ((), .reused (.fromSecs 120) true) ∈ tr ∧
        (∀ b, ∀ x ∈ p b, ((∀ d, x.usage ≠ .opening d) →
            (default : PgTuneConfig).Applies (x.link.settings ())) ∧
          x.link.SentUnder default) ∧ ∀ e ∈ tr, Lane.Probed (.withDefaults .pooled) e.2 := by
  have hstep {p : Unit → Option Lane} {e : LaneEvent} {x : Option Lane}
      (h : Lane.Step (.withDefaults .pooled) (p ()) e x) :
      SqlxPool.Step (.withDefaults .pooled) p ((), e) fun _ ↦ x := by
    refine ⟨x, h, funext fun _ ↦ ?_⟩
    rw [Function.update_self]
  have h : Run (SqlxPool.Step (.withDefaults .pooled)) (fun _ : Unit ↦ none) [] _ := .nil
  have h := h.snoc (hstep (.connect fun _ ↦ .millis 0))
  have h := h.snoc (hstep (.answer (some (.error (.database (some "42704") ""))) false nofun))
  have h := h.snoc (hstep (.answer (some (.ok ())) true fun _ ↦ rfl))
  have h := h.snoc (hstep .open)
  have h := h.snoc (hstep (.begin true))
  have h := h.snoc (hstep (.use (.still .drop rfl)))
  have h := h.snoc (hstep (.settle true trivial))
  have h := h.snoc (hstep (.pass 120000000000))
  have h := h.snoc (hstep .check)
  have h := h.snoc (hstep (.pong (.ok ())))
  have h := h.snoc (hstep .reuse)
  exact ⟨_, _, List.mem_append_right _ (List.mem_singleton.mpr rfl), pool_applies_session h⟩

end SurrealPg
