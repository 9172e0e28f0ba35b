import Mathlib.Logic.Relation
import SurrealPg.Store.Admission

/-!
# The shutdown barrier

Any number of `begin` and `shutdown` calls on one store, interleaved at every access to what they
share and at every message of a connection being set up. The flag bars what looks at it, and every
attempt of a `begin` looks at it once, before it connects. In pooled mode the rest of the attempt
needs a connection of the pool, which `shutdown` closes and waits for. In direct mode nothing but
the counter of active transactions stands between an attempt that has passed the flag and a
`shutdown` that is about to return, and the counter is raised at the end of the attempt.
-/

namespace SurrealPg

open Semantics

variable {ι : Type} [DecidableEq ι]

/-! ## What the calls share -/

inductive StoreCall
  | begin (write : Bool)
  | shutdown

inductive StoreAnswer
  | begun (r : Result PgTransaction)
  | shutDown

def StoreCall.code (s : PgStore) : StoreCall → StoreAsync StoreAnswer
  | begin write => .begun <$> s.begin write
  | shutdown => (fun _ ↦ .shutDown) <$> s.shutdown

structure StoreMem (ι : Type) where
  shuttingDown : Bool
  txActive : UInt64
  /-- The pool is closed. -/
  closed : Bool
  /-- The call has a connection of the pool, or the transaction it returned has it. -/
  out : ι → Bool
  /-- The call has returned a transaction, which has not ended. -/
  opened : ι → Bool

/-- A store just created. -/
def StoreMem.new : StoreMem ι := ⟨false, 0, false, fun _ ↦ false, fun _ ↦ false⟩

/-- A transaction that a call has returned ends, and a pooled connection goes back. -/
inductive EndTx : StoreMem ι → StoreMem ι → Prop
  | intro (m : StoreMem ι) (j : ι) : m.opened j = true → EndTx m
    { m with
      txActive := m.txActive - 1
      out := Function.update m.out j false
      opened := Function.update m.opened j false }

/-- How the store serves one request. A closed pool gives out no connections, and waiting for it
to close completes only when all connections are back. -/
def StoreMem.serve (i : ι) (m : StoreMem ι) :
    (q : StoreReq) → (r : q.Answer) → (m' : StoreMem ι) → Prop
  | .loadShuttingDown, down, m' => down = m.shuttingDown ∧ m' = m
  | .acquire, .ok _, m' => m.closed = false ∧ m' = { m with out := Function.update m.out i true }
  | .acquire, .error _, m' => m' = m
  | .returnConn, _, m' => m' = { m with out := Function.update m.out i false }
  | .loadActive, active, m' => active = m.txActive ∧ m' = m
  | .addActive, _, m' =>
    m' = { m with
      txActive := m.txActive + 1
      opened := Function.update m.opened i true }
  | .storeShuttingDown, _, m' => m' = { m with shuttingDown := true }
  | .closePool, _, m' => m' = { m with closed := true }
  | .awaitPool, completed, m' => (completed = true → ∀ j, m.out j = false) ∧ m' = m
  | .connect, _, m' | .execute _, _, m' | .executeTimed _, _, m' | .poolSize, _, m'
  | .sleep _, _, m' | .addStarted, _, m' | .cancelHeartbeat, _, m' | .takeHeartbeat, _, m'
  | .joinHeartbeat, _, m' | .deadlinePassed, _, m' => m' = m

/-- Between two steps of the calls, transactions handed out before may end. -/
def storeServer (ι : Type) [DecidableEq ι] :
    Server ι StoreReq StoreReq.Answer StoreNote (StoreMem ι) where
  answer i m q r m' := ∃ m₁, Relation.ReflTransGen EndTx m m₁ ∧ m₁.serve i q r m'
  unwind i m
    | .pooled, m' => m' = { m with out := Function.update m.out i false }
    | .unconnected, m' | .direct, m' => m' = m

abbrev StorePool (ι : Type) :=
  Pool ι StoreCall StoreReq StoreReq.Answer StoreNote StoreAnswer (StoreMem ι)

abbrev StoreEvent (ι : Type) := PoolEvent ι StoreCall StoreReq StoreReq.Answer

/-- The steps of the calls on the store `s`. -/
abbrev StoreStep (ι : Type) [DecidableEq ι] (s : PgStore) :
    StorePool ι → StoreEvent ι → StorePool ι → Prop :=
  Pool.Step (storeServer ι) (StoreCall.code s)

/-! ## The phases of a `shutdown` -/

inductive ShutPhase
  | idle
  /-- The flag is up. -/
  | barred
  /-- The pool is closed, and some connections may still be out. -/
  | closing
  /-- All connections are back. -/
  | drained
  /-- Waiting for the connections has timed out. -/
  | overdue
  deriving DecidableEq

namespace ShutPhase

inductive May (mode : ConnectionMode) : ShutPhase → StoreReq → Option StoreNote → Prop
  | raise : May mode idle .storeShuttingDown none
  | cancel : May mode barred .cancelHeartbeat none
  | take : May mode barred .takeHeartbeat (some .unconnected)
  | join : May mode barred .joinHeartbeat (some .unconnected)
  | close : mode = .pooled → May mode barred .closePool none
  | wait : May mode closing .awaitPool (some .unconnected)
  | look {ψ : ShutPhase} : ψ ≠ idle → May mode ψ .loadActive none
  | deadline : May mode barred .deadlinePassed none
  | sleep (ms : ℕ) : May mode barred (.sleep ms) (some .unconnected)

def next : ShutPhase → (q : StoreReq) → q.Answer → Option ShutPhase
  | idle, .storeShuttingDown => fun _ ↦ some barred
  | barred, .closePool => fun _ ↦ some closing
  | closing, .awaitPool => fun completed ↦ some (bif completed then drained else overdue)
  | ψ, _ => fun _ ↦ some ψ

def Ends : ConnectionMode → ShutPhase → Prop
  | .pooled, ψ => ψ = drained ∨ ψ = overdue
  | .direct, ψ => ψ = barred

end ShutPhase

namespace PgStore

open ShutPhase

variable {mode : ConnectionMode}

theorem loadActive_follows {ψ : ShutPhase} (hψ : ψ ≠ idle) :
    loadActive.Follows (May mode) next (fun ψ' _ ↦ ψ' = ψ) ψ := by
  refine ⟨.look hψ, fun active ψ' hψ' ↦ ?_⟩
  have hnext : next ψ .loadActive active = some ψ := by cases ψ <;> rfl
  exact (Option.some.inj (hnext.symm.trans hψ')).symm

theorem drain_follows (polls : ℕ) :
    (drain polls).Follows (May .direct) next (fun ψ _ ↦ ψ = barred) barred := by
  induction polls with
  | zero => exact Dialogue.Follows.bind (loadActive_follows (by decide)) fun ψ _ hψ ↦ hψ
  | succ polls ih =>
    refine Dialogue.Follows.bind (loadActive_follows (by decide)) fun ψ active hψ ↦ ?_
    subst hψ
    split_ifs
    · rfl
    · refine ⟨.deadline, fun passed ψ hψ ↦ ?_⟩
      obtain rfl := Option.some.inj hψ
      cases passed with
      | true => rfl
      | false =>
        refine ⟨.sleep _, fun _ ψ hψ ↦ ?_⟩
        obtain rfl := Option.some.inj hψ
        exact ih

theorem quiesce_follows (s : PgStore) :
    s.quiesce.Follows (May s.mode) next (fun ψ _ ↦ Ends s.mode ψ ∧ ψ ≠ idle) barred := by
  rw [quiesce]
  cases s.mode with
  | pooled =>
    refine ⟨.close rfl, fun _ ψ hψ ↦ ?_⟩
    obtain rfl := Option.some.inj hψ
    refine ⟨.wait, fun completed ψ hψ ↦ ?_⟩
    cases completed with
    | true =>
      obtain rfl : drained = ψ := Option.some.inj hψ
      exact ⟨Or.inl rfl, by decide⟩
    | false =>
      obtain rfl : overdue = ψ := Option.some.inj hψ
      exact ⟨Or.inr rfl, by decide⟩
  | direct =>
    refine Dialogue.Follows.bind (loadActive_follows (by decide)) fun ψ active hψ ↦ ?_
    subst hψ
    split_ifs
    · exact (drain_follows GRACE_POLLS).mono fun ψ _ hψ ↦ ⟨hψ, hψ ▸ by decide⟩
    · exact ⟨rfl, by decide⟩

theorem stopHeartbeat_follows (s : PgStore) :
    s.stopHeartbeat.Follows (May s.mode) next (fun ψ _ ↦ ψ = barred) barred := by
  have htake : Dialogue.Follows (May s.mode) next (fun ψ (_ : Unit) ↦ ψ = barred) barred
      (.ask .takeHeartbeat (some .unconnected) .done >>= fun handle ↦
        if handle then .ask .joinHeartbeat (some .unconnected) .done else pure ()) := by
    refine ⟨.take, fun handle ψ hψ ↦ ?_⟩
    obtain rfl := Option.some.inj hψ
    cases handle with
    | true =>
      refine ⟨.join, fun _ ψ hψ ↦ ?_⟩
      obtain rfl := Option.some.inj hψ
      rfl
    | false => rfl
  rw [stopHeartbeat]
  generalize s.mode = mode at htake ⊢
  cases mode with
  | pooled => exact htake
  | direct =>
    refine ⟨.cancel, fun _ ψ hψ ↦ ?_⟩
    obtain rfl := Option.some.inj hψ
    exact htake

/-- **Every `shutdown` follows its phases.** -/
theorem shutdown_follows (s : PgStore) :
    s.shutdown.Follows (May s.mode) next (fun ψ _ ↦ Ends s.mode ψ) idle := by
  refine ⟨.raise, fun _ ψ hψ ↦ ?_⟩
  obtain rfl := Option.some.inj hψ
  refine Dialogue.Follows.bind (stopHeartbeat_follows s) ?_
  rintro ψ _ rfl
  refine Dialogue.Follows.bind (quiesce_follows s) ?_
  rintro ψ _ ⟨hends, hψ⟩
  refine Dialogue.Follows.bind (loadActive_follows hψ) ?_
  rintro ψ' _ rfl
  exact hends

end PgStore

/-! ## All calls together -/

/-- The phases of both kinds of calls. -/
abbrev StorePhase := BeginPhase ⊕ ShutPhase

/-- The protocol of the calls of a store. -/
def admission (mode : ConnectionMode) :
    Typestate StoreCall StoreReq StoreReq.Answer StoreNote StoreAnswer StorePhase where
  start
    | .begin _ => .inl .outside
    | .shutdown => .inr .idle
  may _
    | .inl φ => BeginPhase.May mode φ
    | .inr ψ => ShutPhase.May mode ψ
  next
    | .inl φ, q => fun r ↦ (φ.next q r).map .inl
    | .inr ψ, q => fun r ↦ (ψ.next q r).map .inr
  ends
    | .begin write, .inl φ, .begun r => φ.Ends write r
    | .shutdown, .inr ψ, .shutDown => ψ.Ends mode
    | _, _, _ => False

theorem StoreCall.follows (s : PgStore) (c : StoreCall) :
    (c.code s).Follows ((admission s.mode).may c) (admission s.mode).next
      ((admission s.mode).ends c) ((admission s.mode).start c) := by
  cases c with
  | begin write =>
    refine Dialogue.Follows.map ((PgStore.begin_follows s write).sim
      (ρ := fun φ ψ ↦ ψ = .inl φ) ?_ ?_ ?_ rfl)
    · rintro φ _ q u rfl hmay
      exact hmay
    · rintro φ _ q u r ψ' rfl - hnext
      obtain ⟨φ', hφ', rfl⟩ := Option.map_eq_some_iff.mp hnext
      exact ⟨φ', hφ', rfl⟩
    · rintro φ _ a rfl hends
      exact hends
  | shutdown =>
    refine Dialogue.Follows.map ((PgStore.shutdown_follows s).sim
      (ρ := fun φ ψ ↦ ψ = .inr φ) ?_ ?_ ?_ rfl)
    · rintro φ _ q u rfl hmay
      exact hmay
    · rintro φ _ q u r ψ' rfl - hnext
      obtain ⟨φ', hφ', rfl⟩ := Option.map_eq_some_iff.mp hnext
      exact ⟨φ', hφ', rfl⟩
    · rintro φ _ a rfl hends
      exact hends

/-- The phases of a `begin` that has a connection, or had one on which `BEGIN` was refused. -/
def BeginPhase.attached : BeginPhase → Bool
  | connected | failed | begun | started => true
  | outside | admitted | counted => false

/-- The phases of a `shutdown` after it has closed the pool. -/
def ShutPhase.pastClose : ShutPhase → Bool
  | closing | drained | overdue => true
  | idle | barred => false

/-- What the phase of call `i` says about the store. -/
def Attests (mode : ConnectionMode) (tr : List (StoreEvent ι)) (m : StoreMem ι) (i : ι) :
    StorePhase → Prop
  | .inl φ => mode = .pooled → φ.attached = true → m.out i = true
  | .inr ψ => (ψ ≠ .idle → m.shuttingDown = true) ∧ (ψ.pastClose = true → m.closed = true) ∧
      (ψ = .drained → ∀ j, m.out j = false) ∧
      (ψ = .overdue → .answered i .awaitPool false ∈ tr)

/-- Every phase tells the truth, and only a transaction that was returned is open. -/
structure StoreInv (mode : ConnectionMode) (tr : List (StoreEvent ι)) (m : StoreMem ι)
    (ph : Phases ι StoreCall StorePhase) : Prop where
  attests : ∀ {i c φ}, ph i = some (.live c φ) → Attests mode tr m i φ
  opened : ∀ {i}, m.opened i = true → ∃ c, ph i = some (.live c (.inl .counted))

omit [DecidableEq ι] in
theorem StoreInv.new {mode : ConnectionMode} :
    StoreInv mode [] (StoreMem.new : StoreMem ι) fun _ ↦ none where
  attests hi := nomatch hi
  opened hi := nomatch hi

/-- What a step of call `i` may change. -/
structure StoreMove (i : ι) (m m' : StoreMem ι) : Prop where
  flag : m.shuttingDown = true → m'.shuttingDown = true
  closed : m.closed = true → m'.closed = true
  others : ∀ j ≠ i, m'.out j = m.out j ∧ m'.opened j = m.opened j
  acquired : m.closed = true → m'.out i = true → m.out i = true

variable {mode : ConnectionMode} {tr : List (StoreEvent ι)} {m m' : StoreMem ι}
  {ph : Phases ι StoreCall StorePhase} {i j : ι} {e : StoreEvent ι}

theorem Attests.other {φ : StorePhase} (h : Attests mode tr m j φ) (hm : StoreMove i m m')
    (hji : j ≠ i) : Attests mode (tr ++ [e]) m' j φ := by
  cases φ with
  | inl φ =>
    intro hmode hφ
    rw [(hm.others j hji).1]
    exact h hmode hφ
  | inr ψ =>
    obtain ⟨hflag, hclosed, hdrained, hoverdue⟩ := h
    refine ⟨fun hψ ↦ hm.flag (hflag hψ), fun hψ ↦ hm.closed (hclosed hψ), fun hψ k ↦ ?_,
      fun hψ ↦ List.mem_append_left _ (hoverdue hψ)⟩
    have hout := hdrained hψ k
    by_cases hki : k = i
    · subst hki
      rw [← Bool.not_eq_true] at hout ⊢
      exact fun hk ↦ hout (hm.acquired (hclosed (hψ ▸ rfl)) hk)
    · rw [(hm.others k hki).1, hout]

theorem StoreInv.update (h : StoreInv mode tr m ph) (hm : StoreMove i m m')
    {t : Task StoreCall StorePhase}
    (ht : ∀ c φ, t = .live c φ → Attests mode (tr ++ [e]) m' i φ)
    (hopened : m'.opened i = true → ∃ c, t = .live c (.inl .counted)) :
    StoreInv mode (tr ++ [e]) m' (Function.update ph i (some t)) where
  attests := by
    intro j c φ hj
    rcases update_eq_some hj with ⟨rfl, hlive⟩ | ⟨hji, hj⟩
    · exact ht c φ hlive
    · exact (h.attests hj).other hm hji
  opened := by
    intro j hj
    by_cases hji : j = i
    · subst hji
      obtain ⟨c, rfl⟩ := hopened hj
      exact ⟨c, Function.update_self ..⟩
    · rw [(hm.others j hji).2] at hj
      rw [Function.update_of_ne hji]
      exact h.opened hj

theorem flags_of_endTx (hend : Relation.ReflTransGen EndTx m m') :
    m'.shuttingDown = m.shuttingDown ∧ m'.closed = m.closed := by
  induction hend with
  | refl => exact ⟨rfl, rfl⟩
  | tail _ hone ih =>
    cases hone
    exact ih

/-- The end of a transaction that was returned touches no call under way. -/
theorem StoreInv.endTx (h : StoreInv mode tr m ph) (hend : Relation.ReflTransGen EndTx m m') :
    StoreInv mode tr m' ph := by
  induction hend with
  | refl => exact h
  | @tail m m' _ hone hinv =>
    obtain ⟨k, hk⟩ := hone
    obtain ⟨ck, hck⟩ := hinv.opened hk
    refine ⟨fun {i c φ} hi ↦ ?_, fun {i} hi ↦ ?_⟩
    · cases φ with
      | inl φ =>
        intro hmode hφ
        -- what ends was returned by a `begin` that is over, and this one is under way
        have hik : i ≠ k := by
          rintro rfl
          obtain ⟨-, hφ'⟩ := Task.live.inj (Option.some.inj (hi.symm.trans hck))
          rw [Sum.inl.inj hφ'] at hφ
          exact nomatch hφ
        change Function.update m.out k false i = true
        rw [Function.update_of_ne hik]
        exact hinv.attests hi hmode hφ
      | inr ψ =>
        obtain ⟨hf, hc, hd, ho⟩ := hinv.attests hi
        refine ⟨hf, hc, fun hψ j ↦ ?_, ho⟩
        change Function.update m.out k false j = false
        rw [Function.update_apply]
        split_ifs
        · rfl
        · exact hd hψ j
    · have hik : i ≠ k := by
        rintro rfl
        have hi : Function.update m.opened i false i = true := hi
        rw [Function.update_self] at hi
        exact nomatch hi
      have hi : Function.update m.opened k false i = true := hi
      rw [Function.update_of_ne hik] at hi
      exact hinv.opened hi

omit [DecidableEq ι] in
theorem StoreMove.refl (i : ι) (m : StoreMem ι) : StoreMove i m m :=
  ⟨id, id, fun _ _ ↦ ⟨rfl, rfl⟩, fun _ h ↦ h⟩

theorem StoreMove.setOut {out : Bool} (h : m.closed = true → out = false) :
    StoreMove i m { m with out := Function.update m.out i out } where
  flag h := h
  closed h := h
  others j hj := ⟨Function.update_of_ne hj .., rfl⟩
  acquired hclosed hout := by
    change Function.update m.out i out i = true at hout
    rw [Function.update_self] at hout
    exact nomatch (h hclosed).symm.trans hout

/-- Serving a call changes what is its own, and may put a flag up. -/
theorem StoreMove.of_serve {q : StoreReq} {r : q.Answer} (h : m.serve i q r m') :
    StoreMove i m m' := by
  cases q with
  | acquire =>
    rcases r with e | u
    · obtain rfl : m' = m := h
      exact .refl i _
    · obtain ⟨hclosed, rfl⟩ := h
      exact .setOut fun hc ↦ nomatch hclosed.symm.trans hc
  | returnConn =>
    obtain rfl := h
    exact .setOut fun _ ↦ rfl
  | addActive =>
    obtain rfl := h
    exact ⟨id, id, fun j hj ↦ ⟨rfl, Function.update_of_ne hj ..⟩, fun _ h ↦ h⟩
  | storeShuttingDown =>
    obtain rfl := h
    exact ⟨fun _ ↦ rfl, id, fun _ _ ↦ ⟨rfl, rfl⟩, fun _ h ↦ h⟩
  | closePool =>
    obtain rfl := h
    exact ⟨id, fun _ ↦ rfl, fun _ _ ↦ ⟨rfl, rfl⟩, fun _ h ↦ h⟩
  | loadShuttingDown | loadActive | awaitPool =>
    obtain ⟨-, rfl⟩ := h
    exact .refl i _
  | _ =>
    obtain rfl : m' = m := h
    exact .refl i _

theorem StoreMove.of_unwind {u : StoreNote} (h : (storeServer ι).unwind i m u m') :
    StoreMove i m m' := by
  cases u with
  | pooled =>
    obtain rfl := h
    exact .setOut fun _ ↦ rfl
  | unconnected | direct =>
    obtain rfl : m' = m := h
    exact .refl i _

/-- A `begin` has the connection its phase speaks of, and comes to have an open transaction only
by being counted. -/
theorem begin_attests {φ : BeginPhase} {q : StoreReq} {u : Option StoreNote} {r : q.Answer}
    (hmay : BeginPhase.May mode φ q u) (hopened : m.opened i = false)
    (hout : mode = .pooled → φ.attached = true → m.out i = true) (hserve : m.serve i q r m') :
    ∃ φ', φ.next q r = some φ' ∧ (mode = .pooled → φ'.attached = true → m'.out i = true) ∧
      (m'.opened i = true → φ' = .counted) := by
  have hno : m.opened i = true → ∀ {φ' : BeginPhase}, φ' = .counted :=
    fun h ↦ nomatch hopened.symm.trans h
  cases hmay with
  | look hφ =>
    obtain ⟨-, rfl⟩ := hserve
    obtain rfl | rfl := hφ <;> cases r <;> exact ⟨_, rfl, nofun, (hno ·)⟩
  | poolSize | sleep =>
    obtain rfl : m' = m := hserve
    exact ⟨_, rfl, nofun, (hno ·)⟩
  | loadActive =>
    obtain ⟨-, rfl⟩ := hserve
    exact ⟨_, rfl, nofun, (hno ·)⟩
  | acquire =>
    rcases r with e | v
    · obtain rfl : m' = m := hserve
      exact ⟨_, rfl, nofun, (hno ·)⟩
    · obtain ⟨-, rfl⟩ := hserve
      exact ⟨_, rfl, fun _ _ ↦ Function.update_self .., (hno ·)⟩
  | connect hmode | session _ hmode | keepalive _ hmode | rollback hmode =>
    obtain rfl : m' = m := hserve
    exact ⟨_, rfl, fun hp _ ↦ (nomatch hmode.symm.trans hp), (hno ·)⟩
  | begin =>
    obtain rfl : m' = m := hserve
    rcases r with e | v
    · exact ⟨_, rfl, fun hp _ ↦ hout hp rfl, (hno ·)⟩
    · exact ⟨_, rfl, fun hp _ ↦ hout hp rfl, (hno ·)⟩
  | returnConn =>
    obtain rfl := hserve
    exact ⟨_, rfl, nofun, (hno ·)⟩
  | countStarted =>
    obtain rfl : m' = m := hserve
    exact ⟨_, rfl, fun hp _ ↦ hout hp rfl, (hno ·)⟩
  | countActive => exact ⟨_, rfl, nofun, fun _ ↦ rfl⟩

omit [DecidableEq ι] in
theorem Attests.append {φ : StorePhase} (h : Attests mode tr m i φ) (e : StoreEvent ι) :
    Attests mode (tr ++ [e]) m i φ := by
  cases φ with
  | inl φ => exact h
  | inr ψ => exact ⟨h.1, h.2.1, h.2.2.1, fun hψ ↦ List.mem_append_left _ (h.2.2.2 hψ)⟩

theorem shutdown_attests {ψ : ShutPhase} {q : StoreReq} {u : Option StoreNote} {r : q.Answer}
    (hmay : ShutPhase.May mode ψ q u) (h : Attests mode tr m i (.inr ψ))
    (hserve : m.serve i q r m') : ∃ ψ', ψ.next q r = some ψ' ∧
      Attests mode (tr ++ [.answered i q r]) m' i (.inr ψ') ∧ m'.opened i = m.opened i := by
  cases hmay with
  | raise =>
    obtain rfl := hserve
    exact ⟨.barred, rfl, ⟨fun _ ↦ rfl, nofun, nofun, nofun⟩, rfl⟩
  | cancel | take | join | deadline | sleep =>
    obtain rfl : m' = m := hserve
    exact ⟨.barred, rfl, h.append _, rfl⟩
  | close =>
    obtain rfl := hserve
    exact ⟨.closing, rfl, ⟨fun _ ↦ h.1 (by decide), fun _ ↦ rfl, nofun, nofun⟩, rfl⟩
  | wait =>
    obtain ⟨hout, rfl⟩ := hserve
    have hflag := h.1 (by decide)
    have hclosed := h.2.1 rfl
    cases r with
    | true =>
      exact ⟨.drained, rfl, ⟨fun _ ↦ hflag, fun _ ↦ hclosed, fun _ ↦ hout rfl, nofun⟩, rfl⟩
    | false =>
      exact ⟨.overdue, rfl, ⟨fun _ ↦ hflag, fun _ ↦ hclosed, nofun, fun _ ↦
        List.mem_append_right _ (List.mem_singleton.mpr rfl)⟩, rfl⟩
  | look hψ =>
    obtain ⟨-, rfl⟩ := hserve
    refine ⟨ψ, ?_, h.append _, rfl⟩
    cases ψ <;> rfl

/-- **The store's invariant is kept**, whatever is called, answered, dropped or ended. -/
theorem StoreInv.keeps : (admission mode).Keeps (storeServer ι) (StoreInv mode) where
  call := by
    intro tr m ph i c h hi
    refine h.update (.refl i m) (fun c' φ ht ↦ ?_) fun hopened ↦ ?_
    · obtain ⟨rfl, rfl⟩ := Task.live.inj ht
      cases c with
      | begin write => exact nofun
      | shutdown => exact ⟨fun hψ ↦ absurd rfl hψ, nofun, nofun, nofun⟩
    · obtain ⟨c', hc⟩ := h.opened hopened
      exact nomatch hi.symm.trans hc
  answer := by
    rintro tr m ph i c φ q u r m' h hi hmay ⟨m₁, hend, hserve⟩
    replace h := h.endTx hend
    have hattests := h.attests hi
    cases φ with
    | inl φ =>
      have hmay : BeginPhase.May mode φ q u := hmay
      -- whoever has an open transaction has been counted, and asks for nothing more
      have hclosed : m₁.opened i = false := by
        rw [← Bool.not_eq_true]
        intro hopened
        obtain ⟨c', hc⟩ := h.opened hopened
        obtain ⟨-, hφ⟩ := Task.live.inj (Option.some.inj (hi.symm.trans hc))
        obtain rfl := Sum.inl.inj hφ
        cases hmay with
        | look hφ => exact nomatch hφ
      obtain ⟨φ', hnext, hout, hopened⟩ := begin_attests hmay hclosed hattests hserve
      refine ⟨.inl φ', congrArg (Option.map _) hnext, h.update (.of_serve hserve) ?_ ?_⟩
      · rintro c' _ ht
        obtain ⟨-, rfl⟩ := Task.live.inj ht
        exact hout
      · exact fun ho ↦ ⟨c, hopened ho ▸ rfl⟩
    | inr ψ =>
      obtain ⟨ψ', hnext, hattests', hopened⟩ := shutdown_attests hmay hattests hserve
      refine ⟨.inr ψ', congrArg (Option.map _) hnext, h.update (.of_serve hserve) ?_ ?_⟩
      · rintro c' _ ht
        obtain ⟨-, rfl⟩ := Task.live.inj ht
        exact hattests'
      · intro ho
        rw [hopened] at ho
        obtain ⟨c', hc⟩ := h.opened ho
        exact nomatch hi.symm.trans hc
  abandon := by
    rintro tr m ph i c φ q u m' h hi hmay hun
    refine h.update (.of_unwind hun) nofun fun ho ↦ ?_
    have hopened : m'.opened = m.opened := by
      cases u with
      | pooled =>
        obtain rfl := hun
        rfl
      | unconnected | direct =>
        obtain rfl : m' = m := hun
        rfl
    rw [hopened] at ho
    obtain ⟨c', hc⟩ := h.opened ho
    obtain ⟨-, rfl⟩ := Task.live.inj (Option.some.inj (hi.symm.trans hc))
    -- a `begin` that has been counted has returned, so it is not abandoned
    have hmay : BeginPhase.May mode .counted q (some u) := hmay
    cases hmay

/-! ## After a `shutdown` has returned -/

/-- The requests of an attempt that has looked at the flag and may still succeed, other than the
one for a pooled connection. -/
def StoreReq.midAttempt : StoreReq → Bool
  | .connect | .executeTimed _ | .execute (.begin _) | .addStarted | .addActive => true
  | _ => false

/-- The protocol of the calls once the flag is up and the pool, if there is one, is closed: a call
that has not returned yet will never return a transaction. -/
def bar (mode : ConnectionMode) :
    Typestate StoreCall StoreReq StoreReq.Answer StoreNote StoreAnswer (Option StoreAnswer) where
  start _ := none
  may _
    | none, q, _ => q.midAttempt = false ∧ (q = .acquire → mode = .pooled)
    | some _, _, _ => False
  next
    | none, .loadShuttingDown => fun down ↦ bif down then some none else none
    | none, .acquire => fun r ↦ if r.isOk then none else some none
    | φ, _ => fun _ ↦ some φ
  ends
    | _, some a, a' => a' = a
    | .begin _, none, .begun r => ∃ e, r = .error e
    | .shutdown, none, _ => True
    | .begin _, none, .shutDown => False

/-- A call in phase `φ` of the protocol of all calls, and in phase `ψ` once new transactions are
barred. -/
abbrev Admitted (mode : ConnectionMode) (c : StoreCall) (φ : StorePhase)
    (d : StoreAsync StoreAnswer) : Prop :=
  d.Follows ((admission mode).may c) (admission mode).next ((admission mode).ends c) φ

abbrev Barred (mode : ConnectionMode) (c : StoreCall) (ψ : Option StoreAnswer)
    (d : StoreAsync StoreAnswer) : Prop :=
  d.Follows ((bar mode).may c) (bar mode).next ((bar mode).ends c) ψ

variable {c : StoreCall} {d : StoreAsync StoreAnswer}

/-- Outside, a `begin` can only look at the flag again. -/
theorem barred_of_outside (h : Admitted mode c (.inl .outside) d) : Barred mode c none d := by
  refine h.sim (ρ := fun φ ψ ↦ φ = .inl .outside ∧ ψ = none) ?_ ?_ ?_ ⟨rfl, rfl⟩
  · rintro _ _ q u ⟨rfl, rfl⟩ hmay
    have hmay : BeginPhase.May mode .outside q u := hmay
    cases hmay <;> exact ⟨rfl, nofun⟩
  · rintro _ _ q u r ψ' ⟨rfl, rfl⟩ hmay hnext
    have hmay : BeginPhase.May mode .outside q u := hmay
    cases hmay with
    | look =>
      cases r with
      | true => exact ⟨_, rfl, rfl, (Option.some.inj hnext).symm⟩
      | false => exact nomatch hnext
    | _ => exact ⟨_, rfl, rfl, (Option.some.inj hnext).symm⟩
  · rintro _ _ a ⟨rfl, rfl⟩ hends
    cases c with
    | begin write => cases a with
      | begun r => exact hends
      | shutDown => exact hends
    | shutdown => trivial

theorem barred_of_shutdown {ψ : ShutPhase} (h : Admitted mode c (.inr ψ) d) :
    Barred mode c none d := by
  refine h.sim (ρ := fun φ ψ ↦ (∃ ψ', φ = .inr ψ') ∧ ψ = none) ?_ ?_ ?_ ⟨⟨ψ, rfl⟩, rfl⟩
  · rintro _ _ q u ⟨⟨ψ, rfl⟩, rfl⟩ hmay
    have hmay : ShutPhase.May mode ψ q u := hmay
    cases hmay <;> exact ⟨rfl, nofun⟩
  · rintro _ _ q u r ψ' ⟨⟨ψ, rfl⟩, rfl⟩ hmay hnext
    have hmay : ShutPhase.May mode ψ q u := hmay
    obtain ⟨φ', hφ'⟩ : ∃ φ', ψ.next q r = some φ' := by
      cases hmay with
      | look => cases ψ <;> exact ⟨_, rfl⟩
      | _ => exact ⟨_, rfl⟩
    refine ⟨.inr φ', congrArg (Option.map _) hφ', ⟨φ', rfl⟩, ?_⟩
    cases hmay <;> exact (Option.some.inj hnext).symm
  · rintro _ _ a ⟨⟨ψ, rfl⟩, rfl⟩ hends
    cases c with
    | begin write => cases a <;> exact hends.elim
    | shutdown => trivial

/-- What a call has returned, if it has. -/
def barPhase : StoreAsync StoreAnswer → Option StoreAnswer
  | .done a => some a
  | .ask .. => none

/-- **A call is barred** unless it is in the middle of an attempt. -/
theorem barred_of_admitted {φ : StorePhase} (h : Admitted mode c φ d)
    (hpooled : mode = .pooled → ∀ φ', φ = .inl φ' → φ'.attached = false)
    (hdirect : mode = .direct → ∀ q u next, d = .ask q u next → q.midAttempt = false) :
    Barred mode c (barPhase d) d := by
  cases d with
  | done a => exact rfl
  | ask q u next =>
    cases φ with
    | inr ψ => exact barred_of_shutdown h
    | inl φ =>
      obtain ⟨hmay, hnext⟩ := h
      -- In the middle of an attempt there is a connection, or a request that rules it out.
      have hmid : q.midAttempt = true → φ.attached = true ∨ mode = .direct → False := by
        rintro hq (hφ | hmode)
        · cases mode with
          | pooled => exact nomatch hφ.symm.trans (hpooled rfl φ rfl)
          | direct => exact nomatch hq.symm.trans (hdirect rfl q u next rfl)
        · exact nomatch hq.symm.trans (hdirect hmode q u next rfl)
      have hmay' : BeginPhase.May mode φ q u := hmay
      cases hmay' with
      | look hφ =>
        refine ⟨⟨rfl, nofun⟩, fun down ψ hψ ↦ ?_⟩
        cases down with
        | false => exact nomatch hψ
        | true =>
          obtain rfl : none = ψ := Option.some.inj hψ
          refine barred_of_outside (hnext true _ ?_)
          obtain rfl | rfl := hφ <;> rfl
      | poolSize | loadActive | sleep => exact barred_of_outside ⟨hmay, hnext⟩
      | acquire hmode =>
        refine ⟨⟨rfl, fun _ ↦ hmode⟩, fun r ψ hψ ↦ ?_⟩
        rcases r with e | v
        · obtain rfl : none = ψ := Option.some.inj hψ
          exact barred_of_outside (hnext (.error e) _ rfl)
        · exact nomatch hψ
      | rollback | returnConn =>
        refine ⟨⟨rfl, nofun⟩, fun r ψ hψ ↦ ?_⟩
        obtain rfl : none = ψ := Option.some.inj hψ
        exact barred_of_outside (hnext r _ rfl)
      | connect hmode => exact (hmid rfl (Or.inr hmode)).elim
      | keepalive | session | begin | countStarted | countActive =>
        exact (hmid rfl (Or.inl rfl)).elim

/-- Nothing has been let in since the flag went up: `old` are the calls that had returned then. -/
structure BarInv (mode : ConnectionMode) (old : ι → StoreCall → StoreAnswer → Prop)
    (tr : List (StoreEvent ι)) (m : StoreMem ι)
    (ph : Phases ι StoreCall (Option StoreAnswer)) : Prop where
  flag : m.shuttingDown = true
  closed : mode = .pooled → m.closed = true
  none_counted : ∀ i, .answered i .addActive () ∉ tr
  old : ∀ {i c a}, ph i = some (.live c (some a)) → old i c a

theorem BarInv.update {old : ι → StoreCall → StoreAnswer → Prop}
    {ph : Phases ι StoreCall (Option StoreAnswer)} (h : BarInv mode old tr m ph)
    (hflag : m'.shuttingDown = true) (hclosed : mode = .pooled → m'.closed = true)
    (he : ∀ j, e ≠ .answered j .addActive ()) {t : Task StoreCall (Option StoreAnswer)}
    (ht : ∀ c ψ, t = .live c ψ → ψ = none) :
    BarInv mode old (tr ++ [e]) m' (Function.update ph i (some t)) where
  flag := hflag
  closed := hclosed
  none_counted j hj := by
    rw [List.mem_append, List.mem_singleton] at hj
    obtain hj | hj := hj
    · exact h.none_counted j hj
    · exact he j hj.symm
  old := by
    intro j c a hj
    rcases update_eq_some hj with ⟨rfl, hlive⟩ | ⟨-, hj⟩
    · exact nomatch ht c (some a) hlive
    · exact h.old hj

theorem BarInv.keeps {old : ι → StoreCall → StoreAnswer → Prop} :
    (bar mode).Keeps (storeServer ι) (BarInv mode old) where
  call := by
    intro tr m ph i c h hi
    refine h.update h.flag h.closed ?_ ?_
    · exact fun _ ↦ nofun
    · exact fun c' ψ ht ↦ (Task.live.inj ht).2.symm
  answer := by
    rintro tr m ph i c ψ q u r m' h hi hmay ⟨m₁, hend, hserve⟩
    obtain ⟨hflag₁, hclosed₁⟩ := flags_of_endTx hend
    have hmove := StoreMove.of_serve hserve
    cases ψ with
    | some a => exact hmay.elim
    | none =>
      have hmay : q.midAttempt = false ∧ (q = .acquire → mode = .pooled) := hmay
      -- the flag is up and the pool is closed: no attempt gets past either
      have hnext : (bar mode).next none q r = some none := by
        cases q with
        | loadShuttingDown =>
          obtain ⟨hr, -⟩ := hserve
          obtain rfl : r = true := hr.trans (hflag₁.trans h.flag)
          rfl
        | acquire =>
          rcases r with e | v
          · rfl
          · obtain ⟨hopen, -⟩ := hserve
            exact nomatch hopen.symm.trans (hclosed₁.trans (h.closed (hmay.2 rfl)))
        | _ => rfl
      refine ⟨none, hnext, h.update (hmove.flag (hflag₁.trans h.flag))
        (fun hmode ↦ hmove.closed (hclosed₁.trans (h.closed hmode))) ?_ ?_⟩
      · rintro j he
        obtain ⟨-, rfl, -⟩ := PoolEvent.answered.inj he
        exact nomatch hmay.1
      · exact fun c' ψ ht ↦ (Task.live.inj ht).2.symm
  abandon := by
    rintro tr m ph i c ψ q u m' h hi hmay hun
    have hmove := StoreMove.of_unwind hun
    refine h.update (hmove.flag h.flag) (fun hmode ↦ hmove.closed (h.closed hmode)) ?_ ?_
    · exact fun _ ↦ nofun
    · exact nofun

/-! ## The barrier -/

/-- The law: once a `shutdown` has returned, other than by a timeout of closing the pool, no call
of `begin` returns a transaction and the counter of active ones is not raised. -/
def ShutdownBarrier (ι : Type) [DecidableEq ι] (s : PgStore) : Prop :=
  ∀ {tr tr' : List (StoreEvent ι)} {p p' : StorePool ι} {k : ι},
    Run (StoreStep ι s) (Pool.start .new) tr p → p.Returned k .shutdown .shutDown →
    .answered k .awaitPool false ∉ tr → Run (StoreStep ι s) p tr' p' →
    (∀ i, .answered i .addActive () ∉ tr') ∧
      ∀ i write tx, p'.Returned i (.begin write) (.begun (.ok tx)) →
        p.Returned i (.begin write) (.begun (.ok tx))

/-- The calls of a pool, by what they have returned. -/
def barPhases (p : StorePool ι) : Phases ι StoreCall (Option StoreAnswer) := fun i ↦
  match p.task i with
  | none => none
  | some (.live c d) => some (.live c (barPhase d))
  | some (.dropped c) => some (.dropped c)

omit [DecidableEq ι] in
theorem returned_of_barPhases {p : StorePool ι} {a : StoreAnswer}
    (hi : barPhases p i = some (.live c (some a))) : p.Returned i c a := by
  rw [barPhases] at hi
  cases htask : p.task i with
  | none => rw [htask] at hi; exact nomatch hi
  | some t =>
    rw [htask] at hi
    cases t with
    | dropped c' => exact nomatch hi
    | live c' d =>
      obtain ⟨rfl, hd⟩ := Task.live.inj (Option.some.inj hi)
      cases d with
      | done a' =>
        obtain rfl := Option.some.inj hd
        exact htask
      | ask q u next => exact nomatch hd

/-- **The barrier holds** in pooled mode, and in direct mode if no call of `begin` is in the middle
of an attempt when `shutdown` returns. -/
theorem begin_barred_of_shutdown {s : PgStore} {tr tr' : List (StoreEvent ι)} {p p' : StorePool ι}
    {k : ι} (h : Run (StoreStep ι s) (Pool.start .new) tr p)
    (hk : p.Returned k .shutdown .shutDown) (hclosed : .answered k .awaitPool false ∉ tr)
    (hidle : s.mode = .direct → ∀ i, ¬p.Waiting i (·.midAttempt))
    (h' : Run (StoreStep ι s) p tr' p') :
    (∀ i, .answered i .addActive () ∉ tr') ∧
      ∀ i write tx, p'.Returned i (.begin write) (.begun (.ok tx)) →
        p.Returned i (.begin write) (.begun (.ok tx)) := by
  obtain ⟨ph, hinv, hph⟩ := StoreInv.keeps.run (StoreCall.follows s) .new h
  -- The `shutdown` that has returned knows what holds from now on.
  obtain ⟨φk, hφk, hends⟩ := hph.live hk
  obtain ⟨ψk, rfl, hψk⟩ : ∃ ψ, φk = .inr ψ ∧ ψ.Ends s.mode := by
    cases φk with
    | inl φ => exact hends.elim
    | inr ψ => exact ⟨ψ, rfl, hends⟩
  obtain ⟨hflag, hpool, hdrained, hoverdue⟩ := hinv.attests hφk
  have hψ : ψk ≠ .idle := by
    rintro rfl
    generalize s.mode = mode at hψk
    cases mode with
    | pooled => obtain hψ | hψ := hψk <;> exact nomatch hψ
    | direct => exact nomatch hψk
  have hout : s.mode = .pooled → p.mem.closed = true ∧ ∀ j, p.mem.out j = false := by
    intro hmode
    rw [hmode] at hψk
    obtain rfl | rfl := hψk
    · exact ⟨hpool rfl, hdrained rfl⟩
    · exact absurd (hoverdue rfl) hclosed
  have hph' : p.Follows (bar s.mode) (barPhases p) := by
    intro i
    rw [barPhases]
    cases htask : p.task i with
    | none => rfl
    | some t =>
      cases t with
      | dropped c => rfl
      | live c d =>
        obtain ⟨φ, hφ, hd⟩ := hph.live htask
        refine ⟨barPhase d, rfl, barred_of_admitted hd ?_ ?_⟩
        · rintro hmode φ' rfl
          rw [← Bool.not_eq_true]
          intro hattached
          have hi := hinv.attests hφ hmode hattached
          exact nomatch ((hout hmode).2 i).symm.trans hi
        · rintro hmode q u next rfl
          rw [← Bool.not_eq_true]
          exact fun hq ↦ hidle hmode i ⟨c, q, u, next, htask, hq⟩
  have hinv' : BarInv s.mode (fun i c a ↦ p.Returned i c a) [] p.mem
      (barPhases p) :=
    ⟨hflag hψ, fun hmode ↦ (hout hmode).1, nofun, returned_of_barPhases⟩
  have hcode : ∀ c : StoreCall, Barred s.mode c none (c.code s) := by
    intro c
    cases c with
    | begin write => exact barred_of_outside (StoreCall.follows s (.begin write))
    | shutdown => exact barred_of_shutdown (StoreCall.follows s .shutdown)
  obtain ⟨ph₂, hinv₂, hph₂⟩ := BarInv.keeps.run_from hcode hinv' hph' h'
  refine ⟨hinv₂.none_counted, fun i write tx hi ↦ ?_⟩
  obtain ⟨ψ, hψ, hends⟩ := hph₂.live hi
  cases ψ with
  | none =>
    obtain ⟨e, he⟩ := hends
    exact nomatch he
  | some a =>
    obtain rfl : StoreAnswer.begun (.ok tx) = a := hends
    exact hinv₂.old hψ

/-- A direct-mode `begin` whose every request succeeds. -/
theorem run_begin_direct {p : StorePool ι} (i : ι) (hi : p.task i = none)
    (hflag : p.mem.shuttingDown = false) :
    ∃ tr, Run (StoreStep ι (.withDefaults .direct)) p tr
      (p.advance i (.live (.begin true) (.done (.begun (.ok ⟨some .direct, true, 0, []⟩))))
        { p.mem with
          txActive := p.mem.txActive + 1
          opened := Function.update p.mem.opened i true }) ∧
      ∀ k, .answered k .awaitPool false ∉ tr := by
  have htask {t : Task StoreCall (StoreAsync StoreAnswer)} {m : StoreMem ι} :=
    Pool.advance_task_self p i t m
  have h : Run (StoreStep ι (.withDefaults .direct)) p [] p := .nil
  have h := h.called i (.begin true) hi
  have h := h.answered i .loadShuttingDown false _ htask ⟨_, .refl, hflag.symm, rfl⟩
  rw [Pool.advance_advance] at h
  have h := h.answered i .loadShuttingDown false _ htask ⟨_, .refl, hflag.symm, rfl⟩
  rw [Pool.advance_advance] at h
  have h := h.answered i .connect (some (.ok ())) _ htask ⟨_, .refl, rfl⟩
  rw [Pool.advance_advance] at h
  have h := h.answered i (.executeTimed _) (some (.ok ())) _ htask ⟨_, .refl, rfl⟩
  rw [Pool.advance_advance] at h
  have h := h.answered i (.executeTimed _) (some (.ok ())) _ htask ⟨_, .refl, rfl⟩
  rw [Pool.advance_advance] at h
  have h := h.answered i (.execute _) (.ok ()) _ htask ⟨_, .refl, rfl⟩
  rw [Pool.advance_advance] at h
  have h := h.answered i .addStarted () _ htask ⟨_, .refl, rfl⟩
  rw [Pool.advance_advance] at h
  have h := h.answered i .addActive () _ htask ⟨_, .refl, rfl⟩
  rw [Pool.advance_advance] at h
  exact ⟨_, h, fun k ↦ by simp⟩

/-- In direct mode, `shutdown` waits until the one transaction has ended. A `begin` that had passed
the flag once when it was raised is turned back at its attempt. -/
theorem begin_barred_of_shutdown_direct :
    ∃ (tr tr' : List (StoreEvent (Fin 3))) (p p' : StorePool (Fin 3)) (tx : PgTransaction)
      (e : PgStoreError),
      Run (StoreStep (Fin 3) (.withDefaults .direct)) (Pool.start .new) tr p ∧
      Run (StoreStep (Fin 3) (.withDefaults .direct)) p tr' p' ∧
      p'.Returned 0 (.begin true) (.begun (.ok tx)) ∧
      p'.Returned 1 (.begin true) (.begun (.error e)) ∧
      (∀ i, .answered i .addActive () ∉ tr') ∧
        ∀ i write tx, p'.Returned i (.begin write) (.begun (.ok tx)) →
          p.Returned i (.begin write) (.begun (.ok tx)) := by
  obtain ⟨tr, h, htr⟩ := run_begin_direct (p := Pool.start .new) (0 : Fin 3) rfl rfl
  have h := h.called 1 (.begin true) rfl
  have h := h.answered 1 .loadShuttingDown false _ rfl ⟨_, .refl, rfl, rfl⟩
  have h := h.called 2 .shutdown rfl
  have h := h.answered 2 .storeShuttingDown () _ rfl ⟨_, .refl, rfl⟩
  have h := h.answered 2 .cancelHeartbeat () _ rfl ⟨_, .refl, rfl⟩
  have h := h.answered 2 .takeHeartbeat false _ rfl ⟨_, .refl, rfl⟩
  have h := h.answered 2 .loadActive 1 _ rfl ⟨_, .refl, rfl, rfl⟩
  have h := h.answered 2 .loadActive 1 _ rfl ⟨_, .refl, rfl, rfl⟩
  have h := h.answered 2 .deadlinePassed false _ rfl ⟨_, .refl, rfl⟩
  have h := h.answered 2 (.sleep _) () _ rfl ⟨_, .single (.intro _ 0 rfl), rfl⟩
  have h := h.answered 2 .loadActive 0 _ rfl ⟨_, .refl, rfl, rfl⟩
  have h := h.answered 2 .loadActive 0 _ rfl ⟨_, .refl, rfl, rfl⟩
  have h' := h.here.answered 1 .loadShuttingDown true _ rfl ⟨_, .refl, rfl, rfl⟩
  refine ⟨_, _, _, _, _, _, h, h', rfl, rfl,
    begin_barred_of_shutdown (k := 2) h rfl ?_ ?_ h'⟩
  · simp [htr]
  · rintro - i ⟨c, q, u, next, hi, hq⟩
    match i with
    | 0 => exact nomatch hi
    | 1 =>
      cases hi
      exact nomatch hq
    | 2 => exact nomatch hi

/-- In direct mode, a `begin` has passed the flag and is connecting when `shutdown` finds nothing
active and returns. It goes on to return a transaction. -/
theorem not_shutdownBarrier_direct : ¬ShutdownBarrier Bool (.withDefaults .direct) := by
  intro hlaw
  have h : Run (StoreStep Bool (.withDefaults .direct)) (Pool.start .new) [] (Pool.start .new) :=
    .nil
  have h := h.called true (.begin true) rfl
  have h := h.answered true .loadShuttingDown false _ rfl ⟨_, .refl, rfl, rfl⟩
  have h := h.answered true .loadShuttingDown false _ rfl ⟨_, .refl, rfl, rfl⟩
  have h := h.called false .shutdown rfl
  have h := h.answered false .storeShuttingDown () _ rfl ⟨_, .refl, rfl⟩
  have h := h.answered false .cancelHeartbeat () _ rfl ⟨_, .refl, rfl⟩
  have h := h.answered false .takeHeartbeat true _ rfl ⟨_, .refl, rfl⟩
  have h := h.answered false .joinHeartbeat () _ rfl ⟨_, .refl, rfl⟩
  have h := h.answered false .loadActive 0 _ rfl ⟨_, .refl, rfl, rfl⟩
  have h := h.answered false .loadActive 0 _ rfl ⟨_, .refl, rfl, rfl⟩
  have h' := h.here.answered true .connect (some (.ok ())) _ rfl ⟨_, .refl, rfl⟩
  have h' := h'.answered true (.executeTimed _) (some (.ok ())) _ rfl ⟨_, .refl, rfl⟩
  have h' := h'.answered true (.executeTimed _) (some (.ok ())) _ rfl ⟨_, .refl, rfl⟩
  have h' := h'.answered true (.execute _) (.ok ()) _ rfl ⟨_, .refl, rfl⟩
  have h' := h'.answered true .addStarted () _ rfl ⟨_, .refl, rfl⟩
  have h' := h'.answered true .addActive () _ rfl ⟨_, .refl, rfl⟩
  obtain ⟨hnone, -⟩ := hlaw h (k := false) rfl (by simp) h'
  exact hnone true (by simp)

end SurrealPg
