import SurrealPg.PgTx.Closing

/-!
# Every close is accounted for once

A call that claims the close owes the store an entry in one of its two counters, and pays it when
the server has answered. If its future is dropped while `COMMIT` or `ROLLBACK` is on its way the
entry is lost: nobody else can claim the close again. Entries made and entries lost together are
one exactly if the close was claimed and nobody owes an entry any more.
-/

namespace SurrealPg

open Semantics Phase

variable {ι : Type}

namespace TxEvent

/-- An entry in `tx_committed` or `tx_rolled_back`. -/
def isEntry : TxEvent ι → Bool
  | .answered _ .addCommitted _ | .answered _ .addRolledBack _ => true
  | _ => false

/-- A call dropped while its `COMMIT` or `ROLLBACK` is on its way. -/
def isLost : TxEvent ι → Bool
  | .abandoned _ q => q.isClose
  | _ => false

/-- An entry that was made or lost. -/
def isSettled (e : TxEvent ι) : Bool := e.isEntry || e.isLost

theorem isLost_eq_false {e : TxEvent ι} (he : e.isEntry = true) : e.isLost = false := by
  match e with
  | .answered .. => rfl
  | .abandoned .. | .called .. => exact nomatch he

end TxEvent

/-- The phases of a call that owes an entry. -/
def Phase.owes : Phase → Bool
  | claimed | taken | owning | closing | released => true
  | _ => false

/-- What a step says about entries: it is neutral, or it claims the close, or it settles it. -/
structure Settling (m m' : TxMem ι) (owed owes : Bool) (e : TxEvent ι) : Prop where
  claims : owes = true → owed = true ∨ m.done = false ∧ m'.done = true
  settles : e.isSettled = true → owed = true ∧ owes = false
  keeps : e.isSettled = false → owed = true → owes = true
  done : m'.done = true → m.done = true ∨ owes = true
  stays : m.done = true → m'.done = true

theorem Move.settling {i : ι} {m m' : TxMem ι} {φ φ' : Phase} {e : TxEvent ι}
    (hm : Move i m φ e m' φ') : Settling m m' φ.owes φ'.owes e := by
  cases hm <;> constructor <;> simp_all [Phase.owes, TxEvent.isSettled, TxEvent.isEntry,
    TxEvent.isLost]

theorem Leave.settling {i : ι} {m m' : TxMem ι} {φ : Phase} {e : TxEvent ι}
    (hl : Leave i m φ e m') : Settling m m' φ.owes false e := by
  cases hl <;> constructor <;> simp_all [Phase.owes, TxEvent.isSettled, TxEvent.isEntry,
    TxEvent.isLost, TxReq.isClose]

/-- Call `i` owes an entry. -/
def Owes (ph : Phases ι Call Phase) (i : ι) : Prop :=
  ∃ c φ, ph i = some (.live c φ) ∧ φ.owes = true

/-- The entries made and lost, and who owes one. -/
structure Accounted (tr : List (TxEvent ι)) (m : TxMem ι) (ph : Phases ι Call Phase) : Prop where
  opened : m.done = false → tr.countP TxEvent.isSettled = 0
  owing : ∀ {i}, Owes ph i → tr.countP TxEvent.isSettled = 0 ∧ m.done = true
  cleared : m.done = true → (∀ i, ¬Owes ph i) → tr.countP TxEvent.isSettled = 1
  unique : ∀ {i j}, Owes ph i → Owes ph j → i = j

variable [DecidableEq ι] {tr : List (TxEvent ι)} {m m' : TxMem ι} {ph : Phases ι Call Phase}
  {i j : ι} {e : TxEvent ι} {owed owes : Bool}

theorem owes_update_self {t : Task Call Phase} :
    Owes (Function.update ph i (some t)) i ↔ ∃ c φ, t = .live c φ ∧ φ.owes = true := by
  rw [Owes, Function.update_self]
  simp only [Option.some.injEq]

theorem owes_update_of_ne {t : Task Call Phase} (h : j ≠ i) :
    Owes (Function.update ph i (some t)) j ↔ Owes ph j := by
  rw [Owes, Owes, Function.update_of_ne h]

/-- A step of call `i` that leaves it owing as `owes` says. -/
theorem Accounted.append (h : Accounted tr m ph) (hs : Settling m m' owed owes e)
    (howed : owed = true ↔ Owes ph i) {t : Task Call Phase}
    (howes : owes = true ↔ ∃ c φ, t = .live c φ ∧ φ.owes = true) :
    Accounted (tr ++ [e]) m' (Function.update ph i (some t)) := by
  replace howes : owes = true ↔ Owes (Function.update ph i (some t)) i :=
    howes.trans owes_update_self.symm
  cases he : e.isSettled with
  | true =>
    -- The entry of `i` was due, and nobody else owes one.
    obtain ⟨hi, hnot⟩ := hs.settles he
    have hi := howed.mp hi
    obtain ⟨hzero, hdone⟩ := h.owing hi
    have hnobody : ∀ j, ¬Owes (Function.update ph i (some t)) j := by
      intro j hj
      by_cases hji : j = i
      · subst hji
        exact nomatch hnot.symm.trans (howes.mpr hj)
      · exact hji (h.unique ((owes_update_of_ne hji).mp hj) hi)
    refine ⟨fun hd ↦ ?_, fun {j} hj ↦ absurd hj (hnobody j), fun _ _ ↦ ?_,
      fun {j _} hj ↦ absurd hj (hnobody j)⟩
    · exact nomatch hd.symm.trans (hs.stays hdone)
    · rw [countP_snoc, hzero, he]
      rfl
  | false =>
    have hcount : (tr ++ [e]).countP TxEvent.isSettled = tr.countP TxEvent.isSettled := by
      rw [countP_snoc, he]
      rfl
    have hself : Owes (Function.update ph i (some t)) i →
        Owes ph i ∨ m.done = false ∧ m'.done = true :=
      fun hi ↦ (hs.claims (howes.mpr hi)).imp_left howed.mp
    refine ⟨fun hd ↦ ?_, fun {j} hj ↦ ?_, fun hd hnobody ↦ ?_, fun {j k} hj hk ↦ ?_⟩
    · rw [hcount]
      refine h.opened ?_
      rw [← Bool.not_eq_true]
      exact fun hd' ↦ nomatch hd.symm.trans (hs.stays hd')
    · rw [hcount]
      by_cases hji : j = i
      · subst hji
        obtain hi | ⟨hd, hd'⟩ := hself hj
        · exact ⟨(h.owing hi).1, hs.stays (h.owing hi).2⟩
        · exact ⟨h.opened hd, hd'⟩
      · obtain ⟨hzero, hdone⟩ := h.owing ((owes_update_of_ne hji).mp hj)
        exact ⟨hzero, hs.stays hdone⟩
    · rw [hcount]
      have hi : ¬Owes ph i := fun hi ↦ hnobody i (howes.mp (hs.keeps he (howed.mpr hi)))
      refine h.cleared ((hs.done hd).resolve_right fun ho ↦ hnobody i (howes.mp ho)) fun j hj ↦ ?_
      by_cases hji : j = i
      · exact hi (hji ▸ hj)
      · exact hnobody j ((owes_update_of_ne hji).mpr hj)
    · -- A call comes to owe only when nobody did.
      have hnew : ∀ {j}, j ≠ i → Owes (Function.update ph i (some t)) j →
          Owes (Function.update ph i (some t)) i → False := by
        intro j hji hj hi
        have hj := (owes_update_of_ne hji).mp hj
        obtain hi | ⟨hd, -⟩ := hself hi
        · exact hji (h.unique hj hi)
        · exact nomatch hd.symm.trans (h.owing hj).2
      by_cases hji : j = i
      · by_cases hki : k = i
        · rw [hji, hki]
        · exact (hnew hki hk (hji ▸ hj)).elim
      · by_cases hki : k = i
        · exact (hnew hji hj (hki ▸ hk)).elim
        · exact h.unique ((owes_update_of_ne hji).mp hj) ((owes_update_of_ne hki).mp hk)

omit [DecidableEq ι] in
theorem owes_iff {c : Call} {φ : Phase} (hi : ph i = some (.live c φ)) :
    φ.owes = true ↔ Owes ph i := by
  constructor
  · exact fun ho ↦ ⟨c, φ, hi, ho⟩
  · rintro ⟨c', φ', hi', ho⟩
    obtain ⟨-, rfl⟩ := Task.live.inj (Option.some.inj (hi.symm.trans hi'))
    exact ho

theorem Accounted.keeps : protocol.Keeps (txServer ι) fun tr m ph ↦
    CloseInv tr m ph ∧ Accounted tr m ph where
  call c h hi := by
    rename_i tr m ph i
    have hs : Settling m m false false (.called i c) := ⟨nofun, nofun, nofun, Or.inl, id⟩
    refine ⟨CloseInv.keeps.call c h.1 hi, h.2.append hs ?_ ?_⟩
    · refine ⟨nofun, fun ⟨c', φ', hi', _⟩ ↦ nomatch hi.symm.trans hi'⟩
    · refine ⟨nofun, fun ⟨c', φ', ht, ho⟩ ↦ ?_⟩
      obtain ⟨-, rfl⟩ := Task.live.inj ht
      exact nomatch ho
  answer h hi hmay hans := by
    obtain ⟨φ', hnext, hm⟩ := h.1.exists_move hi hmay hans
    obtain ⟨φ'', hnext', hinv⟩ := CloseInv.keeps.answer h.1 hi hmay hans
    obtain rfl := Option.some.inj (hnext.symm.trans hnext')
    refine ⟨φ', hnext, hinv, h.2.append hm.settling (owes_iff hi) ?_⟩
    constructor
    · exact fun ho ↦ ⟨_, φ', rfl, ho⟩
    · rintro ⟨c', φ'', ht, ho⟩
      obtain ⟨-, rfl⟩ := Task.live.inj ht
      exact ho
  abandon h hi hmay hun := by
    refine ⟨CloseInv.keeps.abandon h.1 hi hmay hun,
      h.2.append (Leave.of_may hmay hun).settling (owes_iff hi) ?_⟩
    exact ⟨nofun, nofun⟩

/-- **Every close is accounted for once.** At most one entry is made or lost, and only after the
close was claimed; once no call is under way, exactly if it was. -/
theorem accounted_of_run {conn : TxConn} {write : Bool} {p : TxPool ι}
    (h : Run (Pool.Step (txServer ι) (Call.code write)) (Pool.start (.opened conn write)) tr p) :
    tr.countP TxEvent.isSettled ≤ p.mem.done.toNat ∧
      ((∀ i, ¬p.Waiting i fun _ ↦ True) → tr.countP TxEvent.isSettled = p.mem.done.toNat) := by
  have h₀ : Accounted [] (TxMem.opened conn write : TxMem ι) fun _ ↦ none :=
    ⟨fun _ ↦ rfl, fun ⟨_, _, hi, _⟩ ↦ (nomatch hi), nofun, fun ⟨_, _, hi, _⟩ ↦ (nomatch hi)⟩
  obtain ⟨ph, ⟨-, hacc⟩, hph⟩ :=
    Accounted.keeps.run (Call.follows write) ⟨CloseInv.opened conn write, h₀⟩ h
  cases hdone : p.mem.done with
  | false => exact ⟨Nat.le_of_eq (hacc.opened hdone), fun _ ↦ hacc.opened hdone⟩
  | true =>
    refine ⟨?_, fun hquiet ↦ hacc.cleared hdone ?_⟩
    · by_cases howing : ∃ i, Owes ph i
      · obtain ⟨i, hi⟩ := howing
        rw [(hacc.owing hi).1]
        exact Nat.zero_le 1
      · exact Nat.le_of_eq (hacc.cleared hdone (not_exists.mp howing))
    · -- A call that is over owes nothing.
      rintro i ⟨c, φ, hi, howes⟩
      have hfollows := hph i
      cases htask : p.task i with
      | none =>
        rw [htask] at hfollows
        exact nomatch hi.symm.trans hfollows
      | some t =>
        rw [htask] at hfollows
        cases t with
        | dropped c' => exact nomatch hi.symm.trans hfollows
        | live c' d =>
          obtain ⟨φ', hi', hd⟩ := hfollows
          obtain ⟨-, rfl⟩ := Task.live.inj (Option.some.inj (hi.symm.trans hi'))
          cases d with
          | ask q u next => exact hquiet i ⟨c', q, u, next, htask, trivial⟩
          | done a =>
            have hends : Phase.Ends c'.isCloser φ a := hd
            cases φ <;> first | exact hends | exact nomatch howes

end SurrealPg
