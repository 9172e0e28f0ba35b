import SurrealPg.PgTx.Memory

/-!
# A `PgTx` is closed exactly once

Three things are kept by every move. The lock is held by exactly the call whose phase says so.
Behind the lock there is an open transaction until the close is claimed, and nothing from the
moment the claimant has taken it. And the history agrees with the phases: one claim if the close
is claimed, no statement after it, no `COMMIT` or `ROLLBACK` while the claimant has not yet sent
one. The last makes a second `COMMIT` or `ROLLBACK` impossible, since only a call that has claimed
and not yet sent may send one.
-/

namespace SurrealPg

open Postgres Semantics Phase

variable {ι : Type}

/-! ## The invariant -/

/-- The lock is held by the call whose phase says so. -/
def Guarded (m : TxMem ι) (ph : Phases ι Call Phase) : Prop :=
  ∀ i, m.holder = some i ↔ ∃ c φ, ph i = some (.live c φ) ∧ φ.holdsLock = true

/-- What is behind the lock: an open transaction until the close is claimed, and nothing once the
claimant has taken it. -/
structure Behind (m : TxMem ι) (ph : Phases ι Call Phase) : Prop where
  opened : m.done = false → ∃ tx, m.inner = some tx ∧ tx.conn.isSome = true
  emptied : m.done = true → m.inner = none ∨ ∃ i c, ph i = some (.live c .claimed)
  onOpen : ∀ {i c φ}, ph i = some (.live c φ) → φ.onOpen = true → m.done = false
  claimed : ∀ {i c}, ph i = some (.live c .claimed) →
    m.done = true ∧ ∃ tx, m.inner = some tx ∧ tx.conn.isSome = true

/-- The history agrees with the phases. -/
structure Told (tr : List (TxEvent ι)) (m : TxMem ι) (ph : Phases ι Call Phase) : Prop where
  claims : tr.countP TxEvent.isClaim = m.done.toNat
  claimant : ∀ {i c φ}, ph i = some (.live c φ) → (Claimed tr i ↔ φ.hasClaimed = true)
  unique : ∀ {i j}, Claimed tr i → Claimed tr j → i = j
  fresh : ∀ {i}, ph i = none → ¬Claimed tr i ∧ ¬LateLock tr i
  closes : tr.countP (TxEvent.sends TxReq.isClose) ≤ m.done.toNat
  beforeClose : ∀ {i c φ}, ph i = some (.live c φ) → φ.beforeClose = true →
    tr.countP (TxEvent.sends TxReq.isClose) = 0
  ordered : tr.Pairwise fun e e' ↦ e.isClaim = true → e'.sends TxReq.isStatement = false
  late : ∀ {i c φ}, ph i = some (.live c φ) → LateLock tr i → φ.tooLate = true

structure CloseInv (tr : List (TxEvent ι)) (m : TxMem ι) (ph : Phases ι Call Phase) : Prop where
  guarded : Guarded m ph
  behind : Behind m ph
  told : Told tr m ph

/-! ## The lock -/

section

variable {tr : List (TxEvent ι)} {m m' : TxMem ι} {ph : Phases ι Call Phase}
  {i j : ι} {c : Call} {φ φ' : Phase} {e : TxEvent ι}

theorem Guarded.holdsLock_iff (h : Guarded m ph) (hi : ph i = some (.live c φ)) :
    m.holder = some i ↔ φ.holdsLock = true := by
  rw [h i, hi]
  constructor
  · rintro ⟨c', φ', hφ, hlock⟩
    obtain ⟨-, rfl⟩ := Task.live.inj (Option.some.inj hφ)
    exact hlock
  · exact fun hlock ↦ ⟨c, φ, rfl, hlock⟩

theorem Guarded.eq_of_holdsLock (h : Guarded m ph) {c₁ c₂ : Call} {φ₁ φ₂ : Phase}
    (hi : ph i = some (.live c₁ φ₁)) (hj : ph j = some (.live c₂ φ₂))
    (hφ₁ : φ₁.holdsLock = true) (hφ₂ : φ₂.holdsLock = true) : i = j :=
  Option.some.inj (((h.holdsLock_iff hi).mpr hφ₁).symm.trans ((h.holdsLock_iff hj).mpr hφ₂))

/-- A call that has just been given the lock of a closed transaction finds nothing behind it. -/
theorem Behind.inner_eq_none (h : Behind m ph) (hg : Guarded m ph)
    (hi : ph i = some (.live c .locked)) (hdone : m.done = true) : m.inner = none := by
  refine (h.emptied hdone).resolve_right ?_
  rintro ⟨k, c', hk⟩
  have hki : k = i := hg.eq_of_holdsLock hk hi rfl rfl
  rw [hki, hi] at hk
  exact nomatch hk

theorem Told.done_of_claimed (h : Told tr m ph) (hi : ∃ i, Claimed tr i) : m.done = true := by
  have hpos := exists_claimed_iff.mp hi
  rw [h.claims] at hpos
  cases hd : m.done with
  | true => rfl
  | false => rw [hd] at hpos; exact absurd hpos (Nat.lt_irrefl 0)

/-- What the memory answers to a request of the protocol is a move to the next phase. -/
theorem CloseInv.exists_move (h : CloseInv tr m ph) (hi : ph i = some (.live c φ)) {q : TxReq}
    {u : Option TxNote} {r : q.Answer} (hmay : May c.isCloser φ q u)
    (hans : (txServer ι).answer i m q r m') :
    ∃ φ', Phase.next φ q r = some φ' ∧ Move i m φ (.answered i q r) m' φ' := by
  generalize hc : c.isCloser = closer at hmay
  cases hmay with
  | look =>
    obtain ⟨hdone, rfl⟩ := hans
    cases r with
    | false => exact ⟨idle, rfl, .look⟩
    | true => exact ⟨refused, rfl, .lookShut (hdone rfl)⟩
  | wait =>
    obtain ⟨hfree, rfl⟩ := hans
    exact ⟨locked, rfl, .wait hfree⟩
  | peek =>
    obtain ⟨hinner, rfl⟩ := hans
    cases r with
    | none => exact ⟨shut, rfl, .peekShut hinner.symm⟩
    | some tx =>
      -- what a peek finds is there to be found, so nobody has claimed the close yet
      have hdone : m'.done = false := by
        rw [← Bool.not_eq_true]
        exact fun hd ↦ nomatch hinner.trans (h.behind.inner_eq_none h.guarded hi hd)
      obtain ⟨tx', htx', hconn⟩ := h.behind.opened hdone
      obtain rfl := Option.some.inj (hinner.trans htx')
      exact ⟨inside, if_pos hconn, .peekOpen tx htx'⟩
  | statement s left hconn =>
    obtain rfl : m' = m := hans
    exact ⟨inside, rfl, .statement s r⟩
  | putBack tx hconn =>
    obtain rfl := hans
    exact ⟨written, rfl, .putBack tx hconn⟩
  | leave =>
    obtain rfl := hans
    exact ⟨served, rfl, .leave⟩
  | turnBack =>
    obtain rfl := hans
    exact ⟨refused, rfl, .turnBack⟩
  | claim =>
    obtain ⟨inner, done, holder⟩ := m
    obtain ⟨rfl, rfl⟩ := hans
    cases r with
    | false => exact ⟨claimed, rfl, .claim rfl⟩
    | true => exact ⟨shut, rfl, .claimLate rfl⟩
  | take =>
    obtain ⟨rfl, rfl⟩ := hans
    -- only this call has claimed, so what it takes is still open
    obtain ⟨-, tx, htx, hconn⟩ := h.behind.claimed hi
    rw [htx]
    exact ⟨taken, if_pos hconn, .take tx htx⟩
  | giveBack =>
    obtain rfl := hans
    exact ⟨owning, rfl, .giveBack⟩
  | commit left =>
    obtain rfl : m' = m := hans
    exact ⟨closing, rfl, .commit r⟩
  | rollback left =>
    obtain rfl : m' = m := hans
    exact ⟨closing, rfl, .rollback r⟩
  | release =>
    obtain rfl : m' = m := hans
    exact ⟨released, rfl, .release⟩
  | countCommitted =>
    obtain rfl : m' = m := hans
    exact ⟨settled, rfl, .countCommitted⟩
  | countRolledBack =>
    obtain rfl : m' = m := hans
    exact ⟨settled, rfl, .countRolledBack⟩

theorem CloseInv.opened (conn : TxConn) (write : Bool) :
    CloseInv [] (TxMem.opened conn write : TxMem ι) fun _ ↦ none where
  guarded _ := ⟨nofun, fun ⟨_, _, h, _⟩ ↦ nomatch h⟩
  behind := ⟨fun _ ↦ ⟨_, rfl, rfl⟩, nofun, nofun, nofun⟩
  told := {
    claims := rfl
    claimant := nofun
    unique := nofun
    fresh := fun _ ↦ ⟨nofun, fun ⟨l, r, h, _⟩ ↦ List.append_ne_nil_of_right_ne_nil l
      (List.cons_ne_nil _ r) h.symm⟩
    closes := Nat.le_refl 0
    beforeClose := nofun
    ordered := List.Pairwise.nil
    late := nofun }

/-! ## The lock is kept -/

variable [DecidableEq ι]

theorem Guarded.update (h : Guarded m ph) {t : Task Call Phase}
    (hi : m'.holder = some i ↔ ∃ c φ, t = .live c φ ∧ φ.holdsLock = true)
    (hj : ∀ j ≠ i, (m'.holder = some j ↔ m.holder = some j)) :
    Guarded m' (Function.update ph i (some t)) := by
  intro j
  by_cases hji : j = i
  · subst hji
    rw [hi, Function.update_self]
    simp only [Option.some.injEq]
  · rw [hj j hji, Function.update_of_ne hji, h j]

theorem Guarded.move (h : Guarded m ph) (hi : ph i = some (.live c φ))
    (hm : Move i m φ e m' φ') : Guarded m' (Function.update ph i (some (.live c φ'))) := by
  obtain ⟨hself, hother⟩ := hm.holder (h.holdsLock_iff hi)
  refine h.update (hself.trans ⟨fun hlock ↦ ⟨c, φ', rfl, hlock⟩, ?_⟩) hother
  rintro ⟨c', φ'', ht, hlock⟩
  obtain ⟨-, rfl⟩ := Task.live.inj ht
  exact hlock

theorem Guarded.leave (h : Guarded m ph) (hi : ph i = some (.live c φ))
    (hl : Leave i m φ e m') : Guarded m' (Function.update ph i (some (.dropped c))) := by
  obtain ⟨hself, hother⟩ := hl.holder (h.holdsLock_iff hi)
  refine h.update ⟨fun hh ↦ absurd hh hself, ?_⟩ hother
  rintro ⟨c', φ', ht, -⟩
  exact nomatch ht

theorem Guarded.call (h : Guarded m ph) (hi : ph i = none) (c : Call) :
    Guarded m (Function.update ph i (some (.live c .idle))) := by
  refine h.update ?_ fun _ _ ↦ Iff.rfl
  rw [h i, hi]
  constructor
  · rintro ⟨c', φ', hφ, -⟩
    exact nomatch hφ
  · rintro ⟨c', φ', ht, hlock⟩
    obtain ⟨-, rfl⟩ := Task.live.inj ht
    exact nomatch hlock

/-! ## What is behind the lock is kept -/

theorem Behind.emptied_update (h : Behind m ph) (hi : ∀ c, ph i ≠ some (.live c .claimed))
    (t : Task Call Phase) (hdone : m.done = true) :
    m.inner = none ∨ ∃ j c, Function.update ph i (some t) j = some (.live c .claimed) := by
  refine (h.emptied hdone).imp_right ?_
  rintro ⟨j, c, hj⟩
  refine ⟨j, c, ?_⟩
  rwa [Function.update_of_ne]
  rintro rfl
  exact hi c hj

theorem Behind.move (h : Behind m ph) (hg : Guarded m ph) (hi : ph i = some (.live c φ))
    (hm : Move i m φ e m' φ') : Behind m' (Function.update ph i (some (.live c φ'))) where
  opened hdone := by
    cases hm with
    | putBack tx htx => exact ⟨tx, rfl, htx⟩
    | claim hm => exact nomatch hdone
    | take tx htx => exact nomatch hdone.symm.trans (h.claimed hi).1
    | _ => exact h.opened hdone
  emptied hdone := by
    have hkeep (hφ : φ ≠ .claimed) := h.emptied_update (t := .live c φ') fun c' hc ↦
      hφ (Task.live.inj (Option.some.inj (hi.symm.trans hc))).2
    cases hm with
    | putBack tx htx => exact nomatch hdone.symm.trans (h.onOpen hi rfl)
    | claim hm => exact Or.inr ⟨i, c, Function.update_self ..⟩
    | take tx htx => exact Or.inl rfl
    | _ => exact hkeep nofun hdone
  onOpen := by
    intro j c' ψ hj hψ
    rcases update_eq_live hj with ⟨rfl, rfl, rfl⟩ | ⟨hji, hj⟩
    · cases hm with
      | peekOpen tx htx =>
        rw [← Bool.not_eq_true]
        exact fun hdone ↦ nomatch htx.symm.trans (h.inner_eq_none hg hi hdone)
      | statement | putBack => exact h.onOpen hi rfl
      | _ => exact nomatch hψ
    · have hlock : ψ.holdsLock = true := by cases ψ <;> first | rfl | exact nomatch hψ
      have hfree : φ.holdsLock ≠ true := fun hφ ↦ hji (hg.eq_of_holdsLock hj hi hlock hφ)
      rw [(hm.frame.resolve_left hfree).2]
      exact h.onOpen hj hψ
  claimed := by
    intro j c' hj
    rcases update_eq_live hj with ⟨rfl, rfl, hφ'⟩ | ⟨hji, hj⟩
    · cases hm with
      | claim hdone => exact ⟨rfl, h.opened hdone⟩
      | _ => exact nomatch hφ'
    · have hfree : φ.holdsLock ≠ true := fun hφ ↦ hji (hg.eq_of_holdsLock hj hi rfl hφ)
      obtain ⟨hinner, hdone⟩ := hm.frame.resolve_left hfree
      rw [hinner, hdone]
      exact h.claimed hj

theorem Behind.update_idle (h : Behind m ph) (hi : ∀ c, ph i ≠ some (.live c .claimed))
    {t : Task Call Phase} (ht : ∀ c φ, t = .live c φ → φ = .idle) :
    Behind m (Function.update ph i (some t)) where
  opened := h.opened
  emptied := h.emptied_update hi t
  onOpen := by
    intro j c' ψ hj hψ
    rcases update_eq_some hj with ⟨rfl, hlive⟩ | ⟨-, hj⟩
    · obtain rfl := ht c' ψ hlive
      exact nomatch hψ
    · exact h.onOpen hj hψ
  claimed := by
    intro j c' hj
    rcases update_eq_some hj with ⟨rfl, hlive⟩ | ⟨-, hj⟩
    · exact nomatch ht c' _ hlive
    · exact h.claimed hj

theorem Behind.leave (h : Behind m ph) (hi : ph i = some (.live c φ)) (hl : Leave i m φ e m') :
    Behind m' (Function.update ph i (some (.dropped c))) := by
  have hdropped : φ ≠ .claimed → Behind m (Function.update ph i (some (.dropped c))) := by
    refine fun hφ ↦ h.update_idle (fun c' hc ↦ ?_) nofun
    exact hφ (Task.live.inj (Option.some.inj (hi.symm.trans hc))).2
  cases hl with
  | waiting => exact hdropped nofun
  | commit | rollback => exact hdropped nofun
  | statement _ tx htx =>
    have hb := hdropped nofun
    have hdone : m.done = false := h.onOpen hi rfl
    exact {
      opened := fun _ ↦ ⟨tx, rfl, htx⟩
      emptied := fun hd ↦ nomatch hdone.symm.trans hd
      onOpen := hb.onOpen
      claimed := fun hj ↦ nomatch hdone.symm.trans (hb.claimed hj).1 }

/-! ## The history is kept -/

/-- Add one event of call `i`, whose phase was `φ`, and put the call where the event leaves it. -/
theorem Told.append (h : Told tr m ph) {t : Task Call Phase}
    (hclaimed : Claimed tr i ↔ φ.hasClaimed = true)
    (hbefore : φ.beforeClose = true → tr.countP (TxEvent.sends TxReq.isClose) = 0)
    (hcaller : ∀ j ≠ i, e ≠ .answered j .swapDone false ∧ e ≠ .answered j .lock ())
    (hclaim : e.isClaim = true → m.done = false)
    (hdone : m'.done.toNat = m.done.toNat + if e.isClaim = true then 1 else 0)
    (hclose : e.sends TxReq.isClose = true → φ.beforeClose = true)
    (hstmt : e.sends TxReq.isStatement = true → m.done = false)
    (hnew : ∀ c' φ', t = .live c' φ' →
      (φ'.hasClaimed = true ↔ φ.hasClaimed = true ∨ e = .answered i .swapDone false) ∧
      (φ'.beforeClose = true →
        e.sends TxReq.isClose = false ∧ (φ.beforeClose = true ∨ m.done = false)) ∧
      (LateLock (tr ++ [e]) i → φ'.tooLate = true)) :
    Told (tr ++ [e]) m' (Function.update ph i (some t)) where
  claims := by rw [List.countP_append, h.claims, hdone, List.countP_singleton]
  claimant := by
    intro j c' ψ hj
    rw [claimed_append_singleton]
    rcases update_eq_some hj with ⟨rfl, hlive⟩ | ⟨hji, hj⟩
    · rw [hclaimed, (hnew c' ψ hlive).1]
    · rw [h.claimant hj, or_iff_left (hcaller j hji).1]
  unique := by
    have hnone : e.isClaim = true → ∀ k, ¬Claimed tr k := fun he k hk ↦
      nomatch (hclaim he).symm.trans (h.done_of_claimed ⟨k, hk⟩)
    intro j k hj hk
    rw [claimed_append_singleton] at hj hk
    obtain hj | rfl := hj
    · obtain hk | rfl := hk
      · exact h.unique hj hk
      · exact absurd hj (hnone rfl j)
    · obtain hk | hk := hk
      · exact absurd hk (hnone rfl k)
      · exact (PoolEvent.answered.inj hk).1
  fresh := by
    intro j hj
    obtain ⟨hji, hj⟩ := update_eq_none hj
    rw [claimed_append_singleton, or_iff_left (hcaller j hji).1]
    refine ⟨(h.fresh hj).1, fun hlate ↦ ?_⟩
    obtain hlate | ⟨he, -⟩ := hlate.of_append_singleton
    · exact (h.fresh hj).2 hlate
    · exact (hcaller j hji).2 he
  closes := by
    rw [List.countP_append, List.countP_singleton, hdone]
    by_cases hc : e.sends TxReq.isClose = true
    · have hd : m.done = true :=
        h.done_of_claimed ⟨i, hclaimed.mpr (hasClaimed_of_beforeClose (hclose hc))⟩
      rw [if_pos hc, hbefore (hclose hc), hd]
      exact Nat.le_add_right 1 _
    · rw [if_neg hc]
      exact h.closes.trans (Nat.le_add_right _ _)
  beforeClose := by
    intro j c' ψ hj hψ
    rw [List.countP_append, List.countP_singleton, Nat.add_eq_zero_iff, ite_eq_right_iff,
      ← Bool.not_eq_false]
    rcases update_eq_some hj with ⟨rfl, hlive⟩ | ⟨hji, hj⟩
    · obtain ⟨hquiet, hbc | hd⟩ := (hnew c' ψ hlive).2.1 hψ
      · exact ⟨hbefore hbc, fun hs ↦ absurd hquiet hs⟩
      · refine ⟨Nat.le_zero.mp (h.closes.trans ?_), fun hs ↦ absurd hquiet hs⟩
        rw [hd]
        exact Nat.le_refl 0
    · refine ⟨h.beforeClose hj hψ, fun hs ↦ ?_⟩
      rw [Bool.not_eq_false] at hs
      -- Only a call that has claimed may send, and there is only one.
      have hj' : Claimed tr j := (h.claimant hj).mpr (hasClaimed_of_beforeClose hψ)
      have hi' : Claimed tr i := hclaimed.mpr (hasClaimed_of_beforeClose (hclose hs))
      exact absurd (h.unique hj' hi') hji
  ordered := by
    rw [List.pairwise_append]
    refine ⟨h.ordered, List.pairwise_singleton _ _, fun e₀ he₀ e₁ he₁ hc ↦ ?_⟩
    obtain rfl := List.mem_singleton.mp he₁
    obtain ⟨k, rfl⟩ := TxEvent.isClaim_iff.mp hc
    rw [← Bool.not_eq_true]
    exact fun hs ↦ nomatch (hstmt hs).symm.trans (h.done_of_claimed ⟨k, he₀⟩)
  late := by
    intro j c' ψ hj hlate
    rcases update_eq_some hj with ⟨rfl, hlive⟩ | ⟨hji, hj⟩
    · exact (hnew c' ψ hlive).2.2 hlate
    · obtain hlate | ⟨he, -⟩ := hlate.of_append_singleton
      · exact h.late hj hlate
      · exact absurd he (hcaller j hji).2

theorem Told.move (h : Told tr m ph) (hb : Behind m ph) (hg : Guarded m ph)
    (hi : ph i = some (.live c φ)) (hm : Move i m φ e m' φ') :
    Told (tr ++ [e]) m' (Function.update ph i (some (.live c φ'))) := by
  refine h.append (h.claimant hi) (h.beforeClose hi) (fun j hj ↦ hm.caller hj)
    hm.done_eq_false hm.done hm.beforeClose_of_sends
    (fun he ↦ hb.onOpen hi (hm.onOpen_of_sends he)) ?_
  rintro c' φ'' ht
  obtain ⟨-, rfl⟩ := Task.live.inj ht
  refine ⟨hm.hasClaimed_iff, hm.beforeClose, fun hlate ↦ ?_⟩
  obtain hlate | ⟨rfl, -⟩ := hlate.of_append_singleton
  · have hdone := h.done_of_claimed hlate.exists_claimed
    exact hm.tooLate (h.late hi hlate) hdone fun hφ ↦ hb.inner_eq_none hg (hφ ▸ hi) hdone
  · rw [hm.eq_locked]
    rfl

theorem Told.leave (h : Told tr m ph) (hb : Behind m ph) (hi : ph i = some (.live c φ))
    (hl : Leave i m φ e m') :
    Told (tr ++ [e]) m' (Function.update ph i (some (.dropped c))) := by
  obtain ⟨hclaim, hdone⟩ := hl.isClaim_eq_false
  refine h.append (h.claimant hi) (h.beforeClose hi) (fun j hj ↦ ?_)
    (fun he ↦ nomatch hclaim.symm.trans he) ?_ hl.beforeClose_of_sends
    (fun he ↦ hb.onOpen hi (hl.onOpen_of_sends he)) nofun
  · cases hl <;> exact ⟨nofun, nofun⟩
  · rw [hclaim, hdone]
    rfl

theorem Told.call (h : Told tr m ph) (hi : ph i = none) (c : Call) :
    Told (tr ++ [.called i c]) m (Function.update ph i (some (.live c .idle))) := by
  have hnot : ¬Claimed tr i := (h.fresh hi).1
  refine h.append (φ := .idle) ⟨fun hc ↦ absurd hc hnot, nofun⟩
    nofun (fun j _ ↦ ⟨nofun, nofun⟩)
    nofun rfl nofun nofun ?_
  rintro c' φ' ht
  obtain ⟨rfl, rfl⟩ := Task.live.inj ht
  refine ⟨⟨nofun, ?_⟩, nofun, fun hlate ↦ ?_⟩
  · rintro (hφ | he)
    · exact nomatch hφ
    · exact nomatch he
  · obtain hlate | ⟨he, -⟩ := hlate.of_append_singleton
    · exact absurd hlate (h.fresh hi).2
    · exact nomatch he

/-- **The close protocol keeps its invariant**, whatever is called, answered or dropped. -/
theorem CloseInv.keeps : protocol.Keeps (txServer ι) CloseInv where
  call c h hi := ⟨h.guarded.call hi c,
    h.behind.update_idle (fun c' hc ↦ nomatch hi.symm.trans hc) fun c' φ ht ↦
      (Task.live.inj ht).2.symm, h.told.call hi c⟩
  answer h hi hmay hans := by
    obtain ⟨φ', hnext, hm⟩ := h.exists_move hi hmay hans
    exact ⟨φ', hnext, h.guarded.move hi hm, h.behind.move h.guarded hi hm,
      h.told.move h.behind h.guarded hi hm⟩
  abandon h hi hmay hun :=
    have hl := Leave.of_may hmay hun
    ⟨h.guarded.leave hi hl, h.behind.leave hi hl, h.told.leave h.behind hi hl⟩

end


/-! ## Every interleaving -/

/-- What a history and the state it leads to say about a `PgTx` that is closed at most once. -/
structure ClosedOnce (tr : List (TxEvent ι)) (p : TxPool ι) : Prop where
  /-- At most one `COMMIT` or `ROLLBACK` has been sent and answered or given up on. -/
  close_once : tr.countP (TxEvent.sends TxReq.isClose) ≤ 1
  /-- While one is under way, there has been none and there is no other. -/
  close_alone : ∀ {i}, p.Waiting i (·.isClose) →
    tr.countP (TxEvent.sends TxReq.isClose) = 0 ∧ ∀ {j}, p.Waiting j (·.isClose) → j = i
  /-- No key-value or savepoint statement is sent after the claim, -/
  no_statement : tr.Pairwise fun e e' ↦ e.isClaim = true → e'.sends TxReq.isStatement = false
  /-- and none is under way. -/
  no_statement_waiting : ∀ {i j}, Claimed tr i → ¬p.Waiting j (·.isStatement)
  claim_once : ∀ {i j}, Claimed tr i → Claimed tr j → i = j
  /-- Among the commits and cancels that have returned, the claimant is the one that was not told
  that the transaction is finished. -/
  sole_closer : ∀ {i c a}, c.isCloser = true → p.Returned i c a →
    (a ≠ .error .transactionFinished ↔ Claimed tr i)
  late_refused : ∀ {i c a}, LateLock tr i → p.Returned i c a → a = .error .transactionFinished
  free_full : p.mem.holder = none → p.mem.done = false → p.mem.inner.isSome = true

/-- **Closed exactly once.** In every interleaving of any number of calls on one `PgTx`, with any
answers of the server and any calls dropped at their await points. -/
theorem closedOnce_of_run [DecidableEq ι] (conn : TxConn) (write : Bool)
    {tr : List (TxEvent ι)} {p : TxPool ι}
    (h : Run (Pool.Step (txServer ι) (Call.code write)) (Pool.start (.opened conn write)) tr p) :
    ClosedOnce tr p := by
  obtain ⟨ph, hinv, hph⟩ := CloseInv.keeps.run (Call.follows write) (CloseInv.opened conn write) h
  have hlive : ∀ {i c d}, p.task i = some (.live c d) → ∃ φ, ph i = some (.live c φ) ∧
      d.Follows (May c.isCloser) Phase.next (Ends c.isCloser) φ := fun hi ↦ hph.live hi
  -- who waits for a `COMMIT` or `ROLLBACK` has claimed the close and not sent it before
  have hclosing : ∀ {i}, p.Waiting i (·.isClose) →
      ∃ c φ, ph i = some (.live c φ) ∧ φ.beforeClose = true := by
    rintro i ⟨c, q, u, next, hi, hq⟩
    obtain ⟨φ, hφ, hmay, -⟩ := hlive hi
    refine ⟨c, φ, hφ, ?_⟩
    generalize c.isCloser = closer at hmay
    cases hmay <;> first | rfl | exact nomatch hq
  refine ⟨?_, ?_, hinv.told.ordered, ?_, hinv.told.unique, ?_, ?_, ?_⟩
  · exact hinv.told.closes.trans (Bool.toNat_le _)
  · intro i hi
    obtain ⟨c, φ, hφ, hbefore⟩ := hclosing hi
    refine ⟨hinv.told.beforeClose hφ hbefore, fun {j} hj ↦ ?_⟩
    obtain ⟨c', φ', hφ', hbefore'⟩ := hclosing hj
    exact hinv.told.unique ((hinv.told.claimant hφ').mpr (hasClaimed_of_beforeClose hbefore'))
      ((hinv.told.claimant hφ).mpr (hasClaimed_of_beforeClose hbefore))
  · rintro i j hclaim ⟨c, q, u, next, hj, hq⟩
    obtain ⟨φ, hφ, hmay, -⟩ := hlive hj
    -- a statement is sent to an open transaction, and after a claim there is none
    have hopen : φ.onOpen = true := by
      generalize c.isCloser = closer at hmay
      cases hmay <;> first | rfl | exact nomatch hq
    exact nomatch (hinv.behind.onOpen hφ hopen).symm.trans (hinv.told.done_of_claimed ⟨i, hclaim⟩)
  · intro i c a hcloser hi
    obtain ⟨φ, hφ, hends⟩ := hlive hi
    rw [hinv.told.claimant hφ]
    change Ends c.isCloser φ a at hends
    rw [hcloser] at hends
    cases φ with
    | refused => exact ⟨fun ha ↦ absurd hends ha, nofun⟩
    | settled => exact ⟨fun _ ↦ rfl, fun _ ↦ hends.2⟩
    | idle | served => exact nomatch hends
    | _ => exact hends.elim
  · intro i c a hlate hi
    obtain ⟨φ, hφ, hends⟩ := hlive hi
    have hφ' := hinv.told.late hφ hlate
    cases φ with
    | refused => exact hends
    | locked | shut => exact hends.elim
    | _ => exact nomatch hφ'
  · intro _ hdone
    obtain ⟨tx, htx, -⟩ := hinv.behind.opened hdone
    exact Option.isSome_of_eq_some htx

/-- Two calls: a `get` reads the flag before the commit of another call claims the close, and is
given the lock while the `COMMIT` is on its way. -/
theorem closedOnce_of_commit_and_get : ∃ (tr : List (TxEvent Bool)) (p : TxPool Bool),
    p.Returned true .commit (.ok (.unit ())) ∧
      p.Returned false (.get [1] none) (.error .transactionFinished) ∧ ClosedOnce tr p := by
  have h : Run (Pool.Step (txServer Bool) (Call.code true)) (Pool.start (.opened .pooled true))
    [] (Pool.start (.opened .pooled true)) := .nil
  have h := h.called true .commit rfl
  have h := h.called false (.get [1] none) rfl
  have h := h.answered false .loadDone false _ rfl ⟨nofun, rfl⟩
  have h := h.answered true .loadDone false _ rfl ⟨nofun, rfl⟩
  have h := h.answered true .lock () _ rfl ⟨rfl, rfl⟩
  have h := h.answered true .swapDone false _ rfl ⟨rfl, rfl⟩
  have h := h.answered true .takeInner _ _ rfl ⟨rfl, rfl⟩
  have h := h.answered true .unlock () _ rfl rfl
  have h := h.answered false .lock () _ rfl ⟨rfl, rfl⟩
  have h := h.answered true (.tx (.sql .commit)) (.ok ⟨[], 0⟩) _ rfl rfl
  have h := h.answered false .readInner none _ rfl ⟨rfl, rfl⟩
  have h := h.answered false .unlock () _ rfl rfl
  have h := h.answered true (.tx .releaseActive) () _ rfl rfl
  have h := h.answered true .addCommitted () _ rfl rfl
  refine ⟨_, _, ?_, ?_, closedOnce_of_run .pooled true h⟩
  · rfl
  · rfl

end SurrealPg
